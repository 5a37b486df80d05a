/-
  GifEdit.Render.Layout
  ─────────────────────
  **HOW LARGE THE GIF IS.**

  The video is scaled to the configured width and to the height that keeps its
  proportions, both rounded down to even numbers of at least two.  An enabled
  backdrop adds its padding on every side, and the video sits in the middle.

  What is rounded is cut off at 32 bits; what is added is not.  Which layouts stay in
  32 bits all the way is settled in `GifEdit.Proofs.Render.Layout`.
-/
import GifEdit.Edit.Specification

namespace GifEdit

/-- The sizes of the output. -/
structure Layout where
  /-- The scaled video. -/
  video : Frame
  /-- The whole picture. -/
  frame : Frame
  /-- Where the video sits in the picture. -/
  offsetX : Nat
  offsetY : Nat
  deriving Repr, DecidableEq, Inhabited

/-- The largest even number not above, but at least two. -/
def evenSide (n : Nat) : Nat := Nat.max (floorEven n) 2

variable {α : Type} [Scalar α]

/-- A value rounded to a whole number of 32 bits. -/
def roundToWord (x : α) : Nat := Scalar.wholeUpTo Scalar.wordMax (Scalar.round x)

/-- The padding beside a side of the video. -/
def Background.margin (b : Background α) (side : Nat) : Nat :=
  if b.enabled then roundToWord (Scalar.ofNat side * b.padding) else 0

namespace Specification

/-- The sides of the scaled video. -/
def videoFrame (s : Specification α) : Frame :=
  let width := evenSide s.exportSettings.width
  ⟨width, evenSide (roundToWord ((Scalar.ofNat width : α) / s.source.frame.aspect))⟩

/-- The layout of the GIF.  Its sums are those of whole numbers and have no largest one;
`layoutInWords?` checks each step against the 32 bits that the sides have, and has this
layout wherever no step leaves them. -/
def layout (s : Specification α) : Layout :=
  let video := s.videoFrame
  let x := s.background.margin video.width
  let y := s.background.margin video.height
  ⟨video, ⟨video.width + 2 * x, video.height + 2 * y⟩, x, y⟩

end Specification
end GifEdit
