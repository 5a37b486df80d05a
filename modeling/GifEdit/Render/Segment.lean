/-
  GifEdit.Render.Segment
  ──────────────────────
  **CUTTING THE KEPT TIME INTO SEGMENTS.**

  A segment shows a stretch of the clip in one way: the full frame, or the crop.
  The markers decide how many there are:

      simple       full
      two parts    full, cropped from the zoom-in to the end
      three parts  full, cropped between the markers, full again

  A zoom-in at time zero counts as none, and a stretch of a millionth of a second or
  less is dropped.
-/
import GifEdit.Edit.Specification

namespace GifEdit

/-! ## §1. Segments. -/

/-- What a segment shows. -/
inductive SegmentKind where
  | full
  | cropped
  deriving Repr, DecidableEq, Inhabited

/-- A stretch of the clip that is shown in one way. -/
structure Segment (α : Type) where
  kind : SegmentKind
  start : α
  stop : α
  deriving Repr, DecidableEq

/-- How the kept time was cut. -/
inductive Shape where
  | simple
  | twoPart
  | threePart
  deriving Repr, DecidableEq, Inhabited

variable {α : Type} [Scalar α]

/-- The length of a segment in seconds. -/
def Segment.duration (s : Segment α) : α := s.stop - s.start

/-- Whether a segment shows the picture of a time. -/
def Segment.covers (s : Segment α) (time : α) : Bool := s.start ≤ time && time < s.stop

/-- A stretch that is no longer than this is dropped. -/
def minSegment : α := 1e-6

/-! ## §2. The cut of an edit. -/

namespace Specification

/-- The shape of an edit, and its segments with those that are too short. -/
def stretches (s : Specification α) : Shape × List (Segment α) :=
  let trim := s.trim
  match s.crop, s.zoom.start, s.zoom.stop with
  | some _, some zoomIn, none =>
      if !(zoomIn == 0) then
        (.twoPart, [⟨.full, trim.start, zoomIn⟩, ⟨.cropped, zoomIn, trim.stop⟩])
      else (.simple, [⟨.full, trim.start, trim.stop⟩])
  | some _, some zoomIn, some zoomOut =>
      if !(zoomIn == 0) then
        (.threePart,
          [⟨.full, trim.start, zoomIn⟩, ⟨.cropped, zoomIn, zoomOut⟩, ⟨.full, zoomOut, trim.stop⟩])
      else (.simple, [⟨.full, trim.start, trim.stop⟩])
  | _, _, _ => (.simple, [⟨.full, trim.start, trim.stop⟩])

/-- How an edit is cut. -/
def shape (s : Specification α) : Shape := s.stretches.1

/-- The segments of an edit. -/
def segments (s : Specification α) : List (Segment α) :=
  s.stretches.2.filter fun segment => minSegment < segment.duration

/-- Whether the picture of a time is the crop: from the zoom-in, up to the zoom-out if
there is one. -/
def isCroppedAt (s : Specification α) (time : α) : Bool :=
  match s.crop, s.zoom.start with
  | some _, some zoomIn => !(zoomIn == 0) && zoomIn ≤ time && s.zoom.stop.all (time < ·)
  | _, _ => false

end Specification
end GifEdit
