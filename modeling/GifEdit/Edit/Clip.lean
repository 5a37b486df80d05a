/-
  GifEdit.Edit.Clip
  ─────────────────
  **THE CLIP BEING EDITED.**

  What the editor knows of a video: its name, its duration in seconds and the sides
  of its frame.
-/
import GifEdit.Edit.Error

namespace GifEdit

/-- A source video. -/
structure Clip (α : Type) where
  name : String
  duration : α
  width : Nat
  height : Nat
  deriving Repr, DecidableEq, Inhabited

namespace Clip

variable {α : Type} [Scalar α]

/-- The frame of the video. -/
def frame (c : Clip α) : Frame := ⟨c.width, c.height⟩

/-- Checks that there is something to edit. -/
def check (c : Clip α) : Except (EditError α) Unit :=
  if !Scalar.isFinite c.duration || c.duration ≤ 0 then
    .error (.invalidSource (.duration c.duration))
  else if c.width < 2 || c.height < 2 then .error (.invalidSource (.tooSmall c.frame))
  else .ok ()

end Clip

/-! ## Names of exported files. -/

/-- The part of a name before its last extension.  An extension is not empty and
lies in the last component of a path. -/
def nameStem (name : List Char) : List Char :=
  let extension := (name.reverse.takeWhile (· != '.')).reverse
  if extension.isEmpty || extension.contains '/' then name
  else
    match name.reverse.dropWhile (· != '.') with
    | [] => name
    | _ :: before => before.reverse

/-- The name of the GIF made from a video of this name. -/
def gifName (name : String) : String := String.ofList (nameStem name.toList) ++ ".gif"

end GifEdit
