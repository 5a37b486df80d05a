/-
  GifEdit.Geometry.Letterbox
  ──────────────────────────
  **BETWEEN CANVAS AND VIDEO.**

  The canvas shows the video as large as its container allows.  Each axis has one
  scale, source pixels per canvas unit, and every conversion goes through it, so a
  box covers the same part of the video however large the canvas is.

  Conversions never fail: what lies outside is clamped, and an axis without extent
  has scale zero.
-/
import GifEdit.Geometry.Canvas
import GifEdit.Geometry.Frame

namespace GifEdit

variable {α : Type} [Scalar α]

/-! ## §1. The canvas of a container. -/

/-- The largest canvas with the proportions of the video that fits a container: a
container wider than the video bounds its height, any other its width. -/
def Size.fit (container : Size α) (source : Frame) : Size α :=
  if container.isEmpty then ⟨0, 0⟩
  else if source.aspect < container.aspect then
    ⟨container.height * source.aspect, container.height⟩
  else ⟨container.width, container.width / source.aspect⟩

/-! ## §2. Scales. -/

/-- Source pixels per canvas unit along one axis. -/
def axisScale (source : Nat) (display : α) : α :=
  if 0 < display then Scalar.ofNat source / display else 0

/-- A value rounded to a whole number of at most `limit`; zero if it is negative or
not finite. -/
def roundClamped (value : α) (limit : Nat) : Nat :=
  if !Scalar.isFinite value || value ≤ 0 then 0
  else Nat.min (Scalar.wholeUpTo Scalar.doubleWordMax (Scalar.round value)) limit

/-- A pixel count on the canvas, rounded to whole units. -/
def unscaled (pixels : Nat) (scale : α) : α :=
  if 0 < scale then Scalar.round (Scalar.ofNat pixels / scale) else 0

/-! ## §3. Conversions. -/

/-- The position in the video under a point of the canvas, clamped to the frame. -/
def Point.toSource (p : Point α) (display : Size α) (source : Frame) : Point α where
  x := Scalar.clamp (p.x * axisScale source.width display.width) 0 (Scalar.ofNat source.width)
  y := Scalar.clamp (p.y * axisScale source.height display.height) 0 (Scalar.ofNat source.height)

/-- The box that shows a region, rounded to whole canvas units. -/
def Region.toDisplay (r : Region) (display : Size α) (source : Frame) : Box α :=
  let sx := axisScale source.width display.width
  let sy := axisScale source.height display.height
  ⟨unscaled r.x sx, unscaled r.y sy, unscaled r.width sx, unscaled r.height sy⟩

/-- The region under a box: inside the frame and with even sides, but perhaps too
small to be encoded. -/
def Box.toSource (b : Box α) (display : Size α) (source : Frame) : Region :=
  let sx := axisScale source.width display.width
  let sy := axisScale source.height display.height
  let x := roundClamped (b.x * sx) source.width
  let y := roundClamped (b.y * sy) source.height
  let width := roundClamped (b.width * sx) (source.width - x)
  let height := roundClamped (b.height * sy) (source.height - y)
  ⟨x, y, floorEven width, floorEven height⟩

end GifEdit
