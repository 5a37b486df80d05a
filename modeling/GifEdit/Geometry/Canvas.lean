/-
  GifEdit.Geometry.Canvas
  ───────────────────────
  **POINTS, SIZES AND BOXES ON THE CANVAS.**

  The canvas is the picture the user points at.  Its coordinates are scalars that
  grow to the right and downwards; a box is given by its top left corner and its
  extents.  Nothing here refers to the pixels of the video.
-/
import GifEdit.Scalar

namespace GifEdit

/-! ## §1. Points and sizes. -/

/-- A position on the canvas. -/
structure Point (α : Type) where
  x : α
  y : α
  deriving Repr, DecidableEq, Inhabited

/-- The extents of the canvas. -/
structure Size (α : Type) where
  width : α
  height : α
  deriving Repr, DecidableEq, Inhabited

variable {α : Type} [Scalar α]

/-- The way from `origin` to a point. -/
def Point.deltaFrom (p origin : Point α) : α × α := (p.x - origin.x, p.y - origin.y)

namespace Size

/-- Width over height; zero for a canvas without height. -/
def aspect (s : Size α) : α := if s.height ≤ 0 then 0 else s.width / s.height

/-- Whether nothing can be shown on the canvas. -/
def isEmpty (s : Size α) : Bool := s.width ≤ 0 || s.height ≤ 0

end Size

/-! ## §2. Boxes. -/

/-- A rectangle on the canvas. -/
structure Box (α : Type) where
  x : α
  y : α
  width : α
  height : α
  deriving Repr, DecidableEq, Inhabited

namespace Box

/-- The box without extents at a point. -/
def ofPoint (p : Point α) : Box α := ⟨p.x, p.y, 0, 0⟩

/-- The right edge. -/
def right (b : Box α) : α := b.x + b.width

/-- The lower edge. -/
def bottom (b : Box α) : α := b.y + b.height

/-- The top left corner. -/
def topLeft (b : Box α) : Point α := ⟨b.x, b.y⟩

/-- The top right corner. -/
def topRight (b : Box α) : Point α := ⟨b.right, b.y⟩

/-- The bottom left corner. -/
def bottomLeft (b : Box α) : Point α := ⟨b.x, b.bottom⟩

/-- The bottom right corner. -/
def bottomRight (b : Box α) : Point α := ⟨b.right, b.bottom⟩

/-- Whether a point lies in the box or on its edge. -/
def contains (b : Box α) (p : Point α) : Bool :=
  b.x ≤ p.x && p.x ≤ b.right && b.y ≤ p.y && p.y ≤ b.bottom

/-- Whether the box lies on a canvas, up to a billionth of a pixel at the far edges. -/
def fitsWithin (b : Box α) (s : Size α) : Bool :=
  0 ≤ b.x && 0 ≤ b.y && b.right ≤ s.width + 1e-9 && b.bottom ≤ s.height + 1e-9

/-- Width over height; zero for a box without height. -/
def aspect (b : Box α) : α := if b.height ≤ 0 then 0 else b.width / b.height

/-- Every coordinate multiplied by the factor of its axis. -/
def scaled (b : Box α) (sx sy : α) : Box α := ⟨b.x * sx, b.y * sy, b.width * sx, b.height * sy⟩

end Box
end GifEdit
