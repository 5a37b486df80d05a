/-
  GifEdit.Geometry.Frame
  ──────────────────────
  **PIXELS OF THE SOURCE VIDEO.**

  A frame is the pixel grid of the video, a region a window cut out of it.  Sides
  and positions are 32-bit words; the far edges of a region saturate, so an edge
  beyond the words is never mistaken for one inside the frame.
-/
import GifEdit.Scalar

namespace GifEdit

/-! ## §1. Frames and regions. -/

/-- The sides of the video in pixels. -/
structure Frame where
  width : Nat
  height : Nat
  deriving Repr, DecidableEq, Inhabited

/-- A window of the video in pixels. -/
structure Region where
  x : Nat
  y : Nat
  width : Nat
  height : Nat
  deriving Repr, DecidableEq, Inhabited

/-- Quotient of two natural numbers. -/
def ratio {α : Type} [Scalar α] (a b : Nat) : α := Scalar.ofNat a / Scalar.ofNat b

namespace Frame

/-- Width over height; one for a video without pixels. -/
def aspect {α : Type} [Scalar α] (f : Frame) : α :=
  if f.width = 0 || f.height = 0 then 1 else ratio f.width f.height

/-- The whole frame as a region. -/
def full (f : Frame) : Region := ⟨0, 0, f.width, f.height⟩

end Frame

/-! ## §2. Regions encoders accept. -/

namespace Region

/-- The right edge, at most the largest word. -/
def right (r : Region) : Nat := Nat.min (r.x + r.width) Scalar.wordMax

/-- The lower edge, at most the largest word. -/
def bottom (r : Region) : Nat := Nat.min (r.y + r.height) Scalar.wordMax

/-- Whether the region lies inside a frame. -/
def fitsWithin (r : Region) (f : Frame) : Bool := r.right ≤ f.width && r.bottom ≤ f.height

/-- Whether both sides are even. -/
def isEven (r : Region) : Bool := r.width % 2 = 0 && r.height % 2 = 0

/-- Whether a side is too short to be encoded. -/
def isDegenerate (r : Region) : Bool := r.width < 2 || r.height < 2

/-- Width over height; zero for a region without height. -/
def aspect {α : Type} [Scalar α] (r : Region) : α :=
  if r.height = 0 then 0 else ratio r.width r.height

end Region

/-- The largest even number not above. -/
def floorEven (n : Nat) : Nat := n - n % 2

end GifEdit
