/-
  GifEdit.Edit.Specification
  ──────────────────────────
  **A COMPLETE EDIT.**

  Everything that is needed to make one GIF.  `ofParts` is the only way to build
  one, and it checks, in this order,

      the clip            finite duration, sides of at least two pixels
      the trim            against the duration of the clip
      the crop            inside the frame, even, not degenerate
      the zoom markers    against the trim and the crop
      the backdrop        its padding

  so the first broken rule is the one that is reported.
-/
import GifEdit.Edit.Trim
import GifEdit.Edit.Export
import GifEdit.Edit.Background
import GifEdit.Edit.Clip

namespace GifEdit

/-- A checked edit. -/
structure Specification (α : Type) where
  source : Clip α
  trim : TrimRange α
  crop : Option Region
  zoom : ZoomWindow α
  exportSettings : ExportSettings
  background : Background α
  deriving Repr, DecidableEq

namespace Specification

variable {α : Type} [Scalar α]

/-- Checks that an encoder can cut a crop, if there is one, out of a frame. -/
def checkCrop (frame : Frame) : Option Region → Except (EditError α) Unit
  | none => .ok ()
  | some crop =>
      if !crop.fitsWithin frame then .error (.cropOutOfBounds crop frame)
      else if crop.isDegenerate || !crop.isEven then .error (.cropNotEven crop)
      else .ok ()

/-- The edit with these parts, if they fit together. -/
def ofParts (source : Clip α) (trim : TrimRange α) (crop : Option Region) (zoom : ZoomWindow α)
    (exportSettings : ExportSettings) (background : Background α) :
    Except (EditError α) (Specification α) := do
  source.check
  let _ ← TrimRange.ofBounds trim.start trim.stop source.duration
  checkCrop source.frame crop
  zoom.check trim crop.isSome
  background.check
  return ⟨source, trim, crop, zoom, exportSettings, background⟩

/-- The untouched edit of a whole clip. -/
def ofClip (source : Clip α) (exportSettings : ExportSettings) (background : Background α) :
    Except (EditError α) (Specification α) := do
  let trim ← TrimRange.full source.duration
  ofParts source trim none ZoomWindow.none exportSettings background

end Specification
end GifEdit
