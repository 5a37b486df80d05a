/-
  GifEdit.Proofs.Scalar.Increasing
  ────────────────────────────────
  **INCREASING MAPS OF THE EXACT NUMBERS.**

  A map of the rationals is applied to the finite numbers, and leaves the infinities and the
  undefined value alone.  To move a number by a rational is such a map, and to stretch it by
  a positive one:

      x - k,   k + x,   x / k,   x * k          are maps of x for any exact x.

  An increasing map keeps the order of all numbers, so it may be applied before or after a
  clamp.  Where it has an inverse, the two clamped to the same interval undo each other up to
  the clamp.

  The lemmas:

    * `clamp_onRational`       — clamps and increasing maps commute,
    * `clamp_clamp`            — what is clamped twice is clamped once,
    * `onRational_symm_clamp`  — an order isomorphism, clamped, and its inverse, clamped.
-/
import GifEdit.Proofs.Scalar.Order
import Mathlib.Order.Hom.Basic

namespace GifEdit.Exact

variable {f g : ℚ → ℚ} {k lo hi lo' hi' : ℚ} {x y : Exact}

/-! ## §1. Moving and stretching. -/

theorem sub_rational (x : Exact) (k : ℚ) : x - rational k = onRational (· - k) x := by
  cases x with
  | rational q => exact rational_sub
  | undefined | negInfinity | posInfinity => rfl

theorem rational_add_left (k : ℚ) (x : Exact) : rational k + x = onRational (k + ·) x := by
  cases x with
  | rational q | undefined | negInfinity | posInfinity => rfl

theorem div_rational (hk : 0 < k) (x : Exact) : x / rational k = onRational (· / k) x := by
  cases x with
  | rational q => exact rational_div hk.ne'
  | undefined => rfl
  | negInfinity => exact negInfinity_div hk
  | posInfinity => exact posInfinity_div hk

theorem mul_rational (hk : 0 < k) (x : Exact) : x * rational k = onRational (· * k) x := by
  cases x with
  | rational q | undefined => rfl
  | negInfinity => exact negInfinity_mul hk
  | posInfinity => exact posInfinity_mul hk

theorem onRational_onRational (x : Exact) :
    onRational g (onRational f x) = onRational (fun q => g (f q)) x := by
  cases x with
  | rational q | undefined | negInfinity | posInfinity => rfl

theorem onRational_id (x : Exact) : onRational (fun q => q) x = x := by
  cases x with
  | rational q | undefined | negInfinity | posInfinity => rfl

/-! ## §2. Order and clamps. -/

/-- **An increasing map keeps the order**, from infinity to infinity. -/
theorem onRational_le (hf : StrictMono f) : onRational f x ≤ onRational f y ↔ x ≤ y := by
  cases x with
  | rational p =>
      cases y with
      | rational q => exact rational_le.trans (hf.le_iff_le.trans rational_le.symm)
      | undefined | negInfinity | posInfinity => exact Iff.rfl
  | undefined | negInfinity | posInfinity => cases y <;> exact Iff.rfl

theorem onRational_lt (hf : StrictMono f) : onRational f x < onRational f y ↔ x < y := by
  cases x with
  | rational p =>
      cases y with
      | rational q => exact rational_lt.trans (hf.lt_iff_lt.trans rational_lt.symm)
      | undefined | negInfinity | posInfinity => exact Iff.rfl
  | undefined | negInfinity | posInfinity => cases y <;> exact Iff.rfl

/-- **Clamps and increasing maps commute.** -/
theorem clamp_onRational (hf : StrictMono f) (hlo : f lo = lo') (hhi : f hi = hi') (x : Exact) :
    Scalar.clamp (onRational f x) (rational lo') (rational hi')
      = onRational f (Scalar.clamp x (rational lo) (rational hi)) := by
  have hlow : rational lo' = onRational f (rational lo) := congrArg rational hlo.symm
  have hhigh : rational hi' = onRational f (rational hi) := congrArg rational hhi.symm
  rw [hlow, hhigh]
  -- The tests compare numbers that went through the map, and come out as they did before it.
  unfold Scalar.clamp
  simp only [onRational_lt hf]
  split
  · rfl
  · split <;> rfl

/-- **The share of an interval** that lies before a number is clamped as the number is. -/
theorem clamp_share (hk : 0 < k) (lo : ℚ) (x : Exact) :
    Scalar.clamp (onRational (fun q => (q - lo) / k) x) 0 1
      = onRational (fun q => (q - lo) / k) (Scalar.clamp x (rational lo) (rational (lo + k))) := by
  have hshare : StrictMono fun q : ℚ => (q - lo) / k := by
    intro p q hpq
    exact div_lt_div_of_pos_right (sub_lt_sub_right hpq lo) hk
  rw [literal_eq, literal_eq]
  refine clamp_onRational hshare ?_ ?_ x
  · rw [sub_self, zero_div, Nat.cast_zero]
  · rw [add_sub_cancel_left, div_self hk.ne', Nat.cast_one]

/-- What lies between the bounds is not moved. -/
theorem clamp_of_mem (hlo : rational lo ≤ x) (hhi : x ≤ rational hi) :
    Scalar.clamp x (rational lo) (rational hi) = x := by
  obtain ⟨q, rfl, hlo, hhi⟩ := exists_of_mem hlo hhi
  rw [clamp_rational (hlo.trans hhi), min_eq_left hhi, max_eq_right hlo]

/-- What is clamped twice is clamped once. -/
theorem clamp_clamp (h : lo ≤ hi) (x : Exact) :
    Scalar.clamp (Scalar.clamp x (rational lo) (rational hi)) (rational lo) (rational hi)
      = Scalar.clamp x (rational lo) (rational hi) := by
  cases hx : Scalar.isUndefined x with
  | true => rw [Scalar.clamp_undefined _ _ hx, Scalar.clamp_undefined _ _ hx]
  | false =>
      obtain ⟨hlow, hhigh⟩ := Scalar.clamp_mem (rational_le.mpr h) hx
      exact clamp_of_mem hlow hhigh

/-- **There and back again.**  From an interval onto its image and back, with a clamp to
either, a number is clamped to the interval it comes from. -/
theorem onRational_symm_clamp (e : ℚ ≃o ℚ) (h : lo ≤ hi) (hlo : e lo = lo') (hhi : e hi = hi')
    (x : Exact) :
    onRational e.symm (Scalar.clamp
        (onRational e (Scalar.clamp x (rational lo) (rational hi))) (rational lo') (rational hi'))
      = Scalar.clamp x (rational lo) (rational hi) := by
  rw [clamp_onRational e.strictMono hlo hhi, clamp_clamp h, onRational_onRational]
  simp only [OrderIso.symm_apply_apply]
  exact onRational_id _

end GifEdit.Exact
