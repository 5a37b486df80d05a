/-
  GifEdit.Proofs.Geometry.Rescaling
  ─────────────────────────────────
  **A BOX THAT IS SCALED WITH ITS CANVAS COVERS THE SAME REGION.**

  The region under a box is read off products: a coordinate of the box times the scale of
  its axis, source pixels per canvas unit.  So along each axis only the quotient

      factor of the box  /  extent of the canvas

  counts, and boxes and canvases for which it is the same cover the same region.  Nothing is
  asked of the box, whose numbers may be infinite or undefined; the canvas has finite
  extents, of any proportions.
-/
import GifEdit.Geometry.Letterbox
import GifEdit.Proofs.Scalar.Exact
import Mathlib.Tactic.FieldSimp

namespace GifEdit

/-! ## §1. Scaling any number twice. -/

namespace Exact

variable {p : ℚ}

/-- A positive factor does not change the sign of an infinity. -/
theorem infinityOf_mul (hp : 0 < p) (q : ℚ) : infinityOf (p * q) = infinityOf q := by
  have hneg : p * q < 0 ↔ q < 0 := by
    rw [← neg_pos, ← mul_neg, mul_pos_iff_of_pos_left hp, neg_pos]
  unfold infinityOf
  simp only [hneg, mul_pos_iff_of_pos_left hp]

theorem mul_mul_rational (hp : 0 < p) (q : ℚ) (x : Exact) :
    x * rational p * rational q = x * rational (p * q) := by
  cases x with
  | undefined => rfl
  | rational r => exact congrArg rational (mul_assoc r p q)
  | posInfinity =>
      rw [posInfinity_mul hp]
      exact (infinityOf_mul hp q).symm
  | negInfinity =>
      rw [negInfinity_mul hp]
      show infinityOf (-q) = infinityOf (-(p * q))
      rw [← mul_neg, infinityOf_mul hp]

theorem mul_one_rational (x : Exact) : x * rational 1 = x := by
  cases x with
  | rational r => exact congrArg rational (mul_one r)
  | undefined => rfl
  | posInfinity => rfl
  | negInfinity => rfl

end Exact

open Exact

/-! ## §2. Canvases with finite extents. -/

namespace Size

/-- Whether a canvas can be seen: its extents are positive and finite. -/
def isVisible {α : Type} [Scalar α] (s : Size α) : Bool :=
  !s.isEmpty && Scalar.isFinite s.width && Scalar.isFinite s.height

theorem isVisible_iff {s : Size Exact} : s.isVisible = true ↔
    ∃ w h : ℚ, 0 < w ∧ 0 < h ∧ s = ⟨rational w, rational h⟩ := by
  obtain ⟨width, height⟩ := s
  unfold isVisible isEmpty
  simp only [Bool.and_eq_true, Bool.not_eq_true', Bool.or_eq_false_iff, decide_eq_false_iff_not,
    isFinite_iff, literal_eq, Nat.cast_zero]
  constructor
  · rintro ⟨⟨⟨hwidth, hheight⟩, w, rfl⟩, h, rfl⟩
    rw [rational_le, not_le] at hwidth hheight
    exact ⟨w, h, hwidth, hheight, rfl⟩
  · rintro ⟨w, h, hw, hh, hs⟩
    obtain ⟨rfl, rfl⟩ := Size.mk.inj hs
    rw [rational_le, rational_le, not_le, not_le]
    exact ⟨⟨⟨hw, hh⟩, w, rfl⟩, h, rfl⟩

theorem isEmpty_of_isVisible {s : Size Exact} (hs : s.isVisible = true) : s.isEmpty = false := by
  unfold isVisible at hs
  simp only [Bool.and_eq_true, Bool.not_eq_true'] at hs
  exact hs.1.1

end Size

theorem axisScale_rational (pixels : ℕ) {d : ℚ} (hd : 0 < d) :
    axisScale pixels (rational d) = rational (pixels / d) := by
  unfold axisScale
  simp only [literal_eq, Nat.cast_zero, rational_lt, hd, if_true, ofNat_eq, rational_div hd.ne']

/-! ## §3. Boxes. -/

namespace Box

/-- The region under a box, if an encoder accepts it. -/
def region? {α : Type} [Scalar α] (b : Box α) (canvas : Size α) (f : Frame) : Option Region :=
  let r := b.toSource canvas f
  if r.isDegenerate then none else some r

variable {p q p' q' w h w' h' : ℚ}

theorem scaled_one (b : Box Exact) : b.scaled (rational 1) (rational 1) = b := by
  unfold scaled
  simp only [mul_one_rational]

theorem scaled_scaled (hp : 0 < p) (hq : 0 < q) (b : Box Exact) :
    (b.scaled (rational p) (rational q)).scaled (rational p') (rational q')
      = b.scaled (rational (p * p')) (rational (q * q')) := by
  unfold scaled
  simp only [mul_mul_rational hp, mul_mul_rational hq]

/-- **Boxes that are as large in parts of their canvases cover the same region.** -/
theorem region?_scaled (hp : 0 < p) (hq : 0 < q) (hp' : 0 < p') (hq' : 0 < q') (hw : 0 < w)
    (hh : 0 < h) (hw' : 0 < w') (hh' : 0 < h') (hx : p / w = p' / w') (hy : q / h = q' / h')
    (b : Box Exact) (f : Frame) :
    (b.scaled (rational p) (rational q)).region? ⟨rational w, rational h⟩ f
      = (b.scaled (rational p') (rational q')).region? ⟨rational w', rational h'⟩ f := by
  have hscaleX : p * (f.width / w) = p' * (f.width / w') := by
    rw [mul_div_left_comm, hx, mul_div_left_comm]
  have hscaleY : q * (f.height / h) = q' * (f.height / h') := by
    rw [mul_div_left_comm, hy, mul_div_left_comm]
  unfold region? toSource scaled
  simp only [axisScale_rational _ hw, axisScale_rational _ hh, axisScale_rational _ hw',
    axisScale_rational _ hh', mul_mul_rational hp, mul_mul_rational hq, mul_mul_rational hp',
    mul_mul_rational hq', hscaleX, hscaleY]

end Box
end GifEdit
