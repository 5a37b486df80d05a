/-
  GifEdit.Edit.Trim
  ─────────────────
  **THE KEPT PART OF A CLIP, AND THE ZOOM INSIDE IT.**

  A trim keeps `[start, stop]` of the clip, in seconds.  A zoom window names the
  times at which playback switches into the crop and back out of it; either may be
  missing, but there is no way out without a way in, and nothing to switch to
  without a crop.  Times given by users are compared with a slack of a billionth
  of a second.
-/
import GifEdit.Edit.Error

namespace GifEdit

variable {α : Type} [Scalar α]

/-- Slack for comparing times given by users. -/
def timeSlack : α := 1e-9

/-- The least distance between zoom-in and zoom-out, in seconds. -/
def minZoomGap : α := 0.1

/-! ## §1. Trim ranges. -/

/-- The kept part of a clip. -/
structure TrimRange (α : Type) where
  start : α
  stop : α
  deriving Repr, DecidableEq, Inhabited

namespace TrimRange

/-- Whether `[start, stop]` is a nonempty part of a clip of this duration. -/
def isValid (start stop duration : α) : Bool :=
  Scalar.isFinite start && Scalar.isFinite stop && 0 ≤ start && start < stop
    && stop ≤ duration + timeSlack

/-- The range `[start, stop]` of a clip. -/
def ofBounds (start stop duration : α) : Except (EditError α) (TrimRange α) :=
  if isValid start stop duration then .ok ⟨start, stop⟩
  else .error (.invalidTrim start stop duration)

/-- The whole clip. -/
def full (duration : α) : Except (EditError α) (TrimRange α) := ofBounds 0 duration duration

/-- Seconds kept. -/
def duration (t : TrimRange α) : α := t.stop - t.start

/-- Whether a time is kept, up to the slack. -/
def contains (t : TrimRange α) (time : α) : Bool :=
  t.start - timeSlack ≤ time && time ≤ t.stop + timeSlack

end TrimRange

/-! ## §2. Zoom windows. -/

/-- When playback switches into the crop and out of it. -/
structure ZoomWindow (α : Type) where
  start : Option α
  stop : Option α
  deriving Repr, DecidableEq, Inhabited

namespace ZoomWindow

/-- No zoom. -/
def none : ZoomWindow α := ⟨.none, .none⟩

/-- Whether there is no marker at all. -/
def isEmpty (z : ZoomWindow α) : Bool := z.start.isNone && z.stop.isNone

/-- Whether a zoom-out at `stop` may follow a zoom-in at `start`. -/
def isOrdered (trim : TrimRange α) (start stop : α) : Bool :=
  Scalar.isFinite stop && start + minZoomGap ≤ stop + timeSlack && stop ≤ trim.stop + timeSlack

/-- Checks the markers against the kept part and against there being a crop. -/
def check (z : ZoomWindow α) (trim : TrimRange α) (hasCrop : Bool) : Except (EditError α) Unit :=
  match z.start, z.stop with
  | .none, .none => .ok ()
  | .none, some _ => .error .zoomOutWithoutZoomIn
  | some start, stop =>
      let outside := EditError.zoomOutOfRange z.start z.stop trim.start trim.stop
      if !hasCrop then .error .zoomWithoutCrop
      else if !(Scalar.isFinite start && trim.contains start) then .error outside
      else
        match stop with
        | .none => .ok ()
        | some stop => if isOrdered trim start stop then .ok () else .error outside

end ZoomWindow
end GifEdit
