/-
  GifEdit.Edit.Error
  ──────────────────
  **WHY AN EDIT IS REFUSED.**

  One constructor for each rule an edit can break, with what is needed to say so.
  The wording stands in `EditError.message` and nowhere else.
-/
import GifEdit.Geometry.Frame
import GifEdit.Decimal.Notation
import GifEdit.Text.Quoted

namespace GifEdit

/-! ## §1. Causes. -/

/-- Why a clip cannot be edited. -/
inductive ClipFault (α : Type) where
  /-- Its duration is no positive number. -/
  | duration (seconds : α)
  /-- It has a side of less than two pixels. -/
  | tooSmall (frame : Frame)
  deriving Repr, DecidableEq

/-- Why an edit is refused. -/
inductive EditError (α : Type) where
  /-- The kept part is empty, or not inside the clip. -/
  | invalidTrim (start stop duration : α)
  /-- A setting outside its range. -/
  | outOfRange (field : String) (value low high : Nat)
  /-- A loop count that players do not offer. -/
  | invalidLoopCount (n : Int)
  /-- A text that is no color. -/
  | invalidColor (text : String)
  /-- A padding outside its range. -/
  | invalidPadding (padding : α)
  /-- A zoom-in without a crop to zoom to. -/
  | zoomWithoutCrop
  /-- A zoom-out without a zoom-in before it. -/
  | zoomOutWithoutZoomIn
  /-- Zoom markers out of order, too close, or outside the kept part. -/
  | zoomOutOfRange (start stop : Option α) (trimStart trimEnd : α)
  /-- A crop that leaves the frame. -/
  | cropOutOfBounds (crop : Region) (frame : Frame)
  /-- A crop with an odd side, or one that is too small. -/
  | cropNotEven (crop : Region)
  /-- A clip that cannot be edited. -/
  | invalidSource (fault : ClipFault α)
  deriving Repr, DecidableEq

/-! ## §2. Wording. -/

variable {α : Type} [Legible α]

/-- The sides of a rectangle. -/
def sidesText (width height : Nat) : String := toString width ++ "x" ++ toString height

/-- The message of a clip fault. -/
def ClipFault.message : ClipFault α → String
  | .duration d => "duration must be positive, got " ++ plainText d
  | .tooSmall f => "frame size " ++ sidesText f.width f.height ++ " is too small"

/-- The message of an edit error. -/
def EditError.message : EditError α → String
  | .invalidTrim start stop duration =>
      "invalid trim range [" ++ plainText start ++ ", " ++ plainText stop ++ "] for a "
        ++ plainText duration ++ "s source"
  | .outOfRange field value low high =>
      field ++ " = " ++ toString value ++ " is outside [" ++ toString low ++ ", "
        ++ toString high ++ "]"
  | .invalidLoopCount n =>
      "loop count " ++ toString n ++ " is not one of -1, 0, 1, 2, 3, 5, 10"
  | .invalidColor text => "invalid color " ++ Text.quoted text ++ ", expected #rrggbb"
  | .invalidPadding p => "background padding " ++ plainText p ++ " is outside [0.0, 0.5]"
  | .zoomWithoutCrop => "zoom-in requires a crop rectangle"
  | .zoomOutWithoutZoomIn => "zoom-out requires a zoom-in"
  | .zoomOutOfRange start stop trimStart trimEnd =>
      "zoom window [" ++ optionText start ++ ", " ++ optionText stop ++ "] does not fit trim ["
        ++ plainText trimStart ++ ", " ++ plainText trimEnd ++ "]"
  | .cropOutOfBounds r f =>
      "crop " ++ sidesText r.width r.height ++ "+" ++ toString r.x ++ "+" ++ toString r.y
        ++ " does not fit a " ++ sidesText f.width f.height ++ " source"
  | .cropNotEven r =>
      "crop extent " ++ sidesText r.width r.height ++ " must be even and at least 2x2"
  | .invalidSource fault => "invalid source: " ++ fault.message

end GifEdit
