/-
  GifEdit.Render.Mask
  ───────────────────
  **MASKS WITH ROUNDED CORNERS.**

  A mask is white everywhere; its shape is in the transparency, from 0 (clear) to
  255 (opaque).  A pixel is judged by its centre.  Only pixels inside a corner box,
  whose side is the radius, can be less than opaque: such a pixel is as opaque as it
  lies inside the arc, with an edge of one pixel across which the coverage falls.

  The radius is at most half the shorter side, and below half a pixel there is no
  arc at all.
-/
import GifEdit.Render.Pipeline
import GifEdit.Failure

namespace GifEdit

/-! ## §1. Pixels. -/

/-- A pixel: a color, and how opaque it is. -/
structure Pixel where
  red : UInt8
  green : UInt8
  blue : UInt8
  /-- From 0 (clear) to 255 (opaque). -/
  alpha : UInt8
  deriving Repr, DecidableEq

/-- Opaque white. -/
def Pixel.white : Pixel := ⟨255, 255, 255, 255⟩

/-! ## §2. Arcs. -/

/-- Numbers that have square roots. -/
class SquareRoot (α : Type) where
  /-- The square root of a number that is not negative. -/
  sqrt : α → α

instance : SquareRoot Float := ⟨Float.sqrt⟩

variable {α : Type} [Scalar α]

/-- Where the centre of a pixel lies on its axis. -/
def pixelCentre (i : Nat) : α := Scalar.ofNat i + 0.5

/-- The centre of the arc that a position on an axis of given length belongs to;
none between the corner boxes. -/
def arcCentre? (side radius position : α) : Option α :=
  if position < radius then some radius
  else if side - radius < position then some (side - radius)
  else none

/-- The coverage of a pixel by its distance from the centre of the arc. -/
def arcCoverage (radius distance : α) : α := Scalar.clamp (radius - distance + 0.5) 0 1

/-- Square of a number. -/
def square (x : α) : α := x * x

namespace MaskShape

/-- The radius that is drawn. -/
def arcRadius (m : MaskShape) : α :=
  Scalar.min (Scalar.ofNat m.radius) (Scalar.ofNat (Nat.min m.width m.height) / 2)

/-! ## §3. Opacity. -/

/-- How opaque the pixel in a column and a row is, for a drawn radius. -/
def alphaAt [SquareRoot α] (m : MaskShape) (radius : α) (x y : Nat) : Nat :=
  if radius < 0.5 then 255
  else
    let px : α := pixelCentre x
    let py : α := pixelCentre y
    match arcCentre? (Scalar.ofNat m.width) radius px,
        arcCentre? (Scalar.ofNat m.height) radius py with
    | some cx, some cy =>
        let distance := SquareRoot.sqrt (square (px - cx) + square (py - cy))
        Scalar.wholeUpTo 255 (Scalar.round (arcCoverage radius distance * 255))
    | _, _ => 255

/-- How opaque the pixels of the mask are, row by row from left to right. -/
def rows (α : Type) [Scalar α] [SquareRoot α] (m : MaskShape) : List (List Nat) :=
  let radius : α := m.arcRadius
  (List.range m.height).map fun y => (List.range m.width).map fun x => m.alphaAt radius x y

/-! ## §4. Masks. -/

/-- The pixels of the mask, row by row.  It starts out opaque and white, and drawing changes
nothing but the opacity. -/
def pixels (α : Type) [Scalar α] [SquareRoot α] (m : MaskShape) : List (List Pixel) :=
  (m.rows α).map fun row => row.map fun a => { Pixel.white with alpha := .ofNat a }

/-- Refuses a mask without pixels. -/
def check (m : MaskShape) : Except Failure Unit :=
  if m.width = 0 || m.height = 0 then
    .error (.image ("Mask size must be non-zero, got " ++ sidesText m.width m.height))
  else .ok ()

end MaskShape
end GifEdit
