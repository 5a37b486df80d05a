/-
  GifEdit.Proofs.Geometry.Rounding
  ────────────────────────────────
  **A REGION SHOWN ON THE CANVAS AND READ BACK.**

  A saved crop is shown in whole canvas units, and the region under the box that shows it
  is again in whole pixels.  Each of the two roundings moves a number by a half at most,
  and a canvas unit is `σ` pixels wide, so along one axis

      shown and read back, `w` pixels become  w ± (σ/2 + 1/2)

  before sides are made even.  The region can be encoded if two pixels are left on each
  axis, and if its position was not moved so far that they are cut off at the frame.  Both
  hold where a canvas unit is no wider than a pixel, and on smaller canvases for sides
  above `(σ + 3) / 2`.

  Main result: `Region.throughCanvas_isSome`.
-/
import GifEdit.Proofs.Geometry.Fitting
import GifEdit.Proofs.Geometry.Letterbox
import Mathlib.Data.Rat.Floor
import Mathlib.Tactic.Linarith

namespace GifEdit

open Exact

/-! ## §1. The nearest whole number. -/

/-- The nearest whole number is at most a half away. -/
theorem Exact.round_eq {q : ℚ} (hq : 0 ≤ q) : ∃ n : ℕ,
    Scalar.round (rational q) = rational n ∧ q - 1 / 2 < n ∧ n ≤ q + 1 / 2 := by
  have hfloor : (0 : ℤ) ≤ ⌊q + 1 / 2⌋ := Int.floor_nonneg.mpr (by linarith)
  obtain ⟨n, hn⟩ := Int.eq_ofNat_of_zero_le hfloor
  have hcast : ((⌊q + 1 / 2⌋ : ℤ) : ℚ) = n := by rw [hn, Int.cast_natCast]
  have hround : roundRat q = n := by
    unfold roundRat
    rw [if_neg (not_lt.mpr hq)]
    exact hcast
  have hle := Int.floor_le (q + 1 / 2)
  have hlt := Int.lt_floor_add_one (q + 1 / 2)
  rw [hcast] at hle hlt
  exact ⟨n, congrArg rational hround, by linarith, hle⟩

/-- A number of pixels in whole canvas units, given in pixels again. -/
theorem unscaled_mul_eq {σ : ℚ} (hσ : 0 < σ) (pixels : ℕ) : ∃ n : ℕ,
    unscaled pixels (rational σ) * rational σ = rational (n * σ)
      ∧ pixels - σ / 2 < n * σ ∧ n * σ ≤ pixels + σ / 2 := by
  obtain ⟨n, hn, hlow, hhigh⟩ := round_eq (div_nonneg (Nat.cast_nonneg pixels) hσ.le)
  have hpixels : (pixels : ℚ) / σ * σ = pixels := div_mul_cancel₀ _ hσ.ne'
  refine ⟨n, ?_, ?_, ?_⟩
  · unfold unscaled
    simp only [literal_eq, ofNat_eq, Nat.cast_zero, rational_lt, hσ, if_true,
      rational_div hσ.ne', hn, rational_mul]
  · have hscaled := mul_lt_mul_of_pos_right hlow hσ
    linarith
  · have hscaled := mul_le_mul_of_nonneg_right hhigh hσ.le
    linarith

/-- A rounded number of pixels, cut off at the limit. -/
theorem roundClamped_eq {v : ℚ} (hv : 0 ≤ v) (limit : ℕ) : ∃ m : ℕ,
    roundClamped (rational v) limit = min (min Scalar.doubleWordMax m) limit
      ∧ v - 1 / 2 < m ∧ m ≤ v + 1 / 2 := by
  unfold roundClamped
  simp only [literal_eq, Nat.cast_zero, isFinite_rational, rational_le, Bool.not_true,
    Bool.false_or, decide_eq_true_eq]
  rcases hv.eq_or_lt with rfl | hpos
  · exact ⟨0, by simp, by norm_num, by norm_num⟩
  · obtain ⟨m, hm, hlow, hhigh⟩ := round_eq hv
    refine ⟨m, ?_, hlow, hhigh⟩
    rw [if_neg (not_le.mpr hpos), hm]
    show min (min Scalar.doubleWordMax (⌊(m : ℚ)⌋).toNat) limit = _
    rw [Int.floor_natCast, Int.toNat_natCast]

/-! ## §2. One axis. -/

section Axis

variable {length x w : ℕ} {σ : ℚ}

/-- Where a canvas unit is no wider than a pixel, a position does not move on. -/
theorem roundClamped_unscaled_le (hσ : 0 < σ) (hfine : σ ≤ 1) :
    roundClamped (unscaled x (rational σ) * rational σ) length ≤ x := by
  obtain ⟨n, hn, -, hnx⟩ := unscaled_mul_eq hσ x
  obtain ⟨m, hm, -, hmn⟩ :=
    roundClamped_eq (mul_nonneg (Nat.cast_nonneg n) hσ.le) length
  rw [hn, hm]
  have hmx : m ≤ x := by
    rcases hfine.lt_or_eq with hlt | rfl
    · have hless : (m : ℚ) < x + 1 := by linarith
      exact Nat.lt_succ_iff.mp (by exact_mod_cast hless)
    · -- Here both roundings start from whole numbers.
      have hnx' : (n : ℚ) < x + 1 := by linarith
      have hmn' : (m : ℚ) < n + 1 := by linarith
      exact (Nat.lt_succ_iff.mp (by exact_mod_cast hmn')).trans
        (Nat.lt_succ_iff.mp (by exact_mod_cast hnx'))
  exact (min_le_left _ _).trans ((min_le_right _ _).trans hmx)

/-- **Two pixels are left of a side** that was shown and read back. -/
theorem two_le_side (hσ : 0 < σ) (hw : 2 ≤ w) (hinside : x + w ≤ length)
    (hscale : σ ≤ 1 ∨ σ < 2 * w - 3) :
    2 ≤ roundClamped (unscaled w (rational σ) * rational σ)
      (length - roundClamped (unscaled x (rational σ) * rational σ) length) := by
  have hw' : (2 : ℚ) ≤ w := by exact_mod_cast hw
  obtain ⟨n, hn, hwn, -⟩ := unscaled_mul_eq hσ w
  -- What the axis leaves for the side.
  have hroom : roundClamped (unscaled x (rational σ) * rational σ) length + 2 ≤ length := by
    rcases hscale with hfine | hlarge
    · have hstays : roundClamped (unscaled x (rational σ) * rational σ) length ≤ x :=
        roundClamped_unscaled_le hσ hfine
      omega
    · obtain ⟨k, hk, -, hkx⟩ := unscaled_mul_eq hσ x
      obtain ⟨m, hm, -, hmk⟩ :=
        roundClamped_eq (mul_nonneg (Nat.cast_nonneg k) hσ.le) length
      rw [hk, hm]
      have hless : (m : ℚ) + 1 < x + w := by linarith
      have hless' : m + 1 < x + w := by exact_mod_cast hless
      have hmin := (min_le_left (min Scalar.doubleWordMax m) length).trans (min_le_right _ m)
      omega
  obtain ⟨m, hm, hnm, -⟩ := roundClamped_eq (mul_nonneg (Nat.cast_nonneg n) hσ.le)
    (length - roundClamped (unscaled x (rational σ) * rational σ) length)
  have hmore : (1 : ℚ) < m := by
    rcases hscale with hfine | hlarge
    · linarith
    · linarith
  have htwo : 2 ≤ m := by exact_mod_cast hmore
  rw [hn, hm]
  exact le_min (le_min (by decide) htwo) (by omega)

end Axis

/-! ## §3. Regions. -/

namespace Region

/-- The region that is read back from the canvas, if an encoder accepts it. -/
def throughCanvas {α : Type} [Scalar α] (r : Region) (canvas : Size α) (f : Frame) :
    Option Region :=
  let back := (r.toDisplay canvas f).toSource canvas f
  if back.isDegenerate then none else some back

/-- Whether a region inside the frame is shown large enough: a canvas unit is no wider
than a pixel, or both sides are long enough for its width. -/
def ShowsOn {α : Type} [Scalar α] (r : Region) (canvas : Size α) (f : Frame) : Prop :=
  let scale := axisScale f.height canvas.height
  r.x + r.width ≤ f.width ∧ r.y + r.height ≤ f.height
    ∧ (scale ≤ 1 ∨
        (scale < Scalar.ofNat (2 * r.width - 3) ∧ scale < Scalar.ofNat (2 * r.height - 3)))

/-- **A region that is shown large enough is read back.** -/
theorem throughCanvas_isSome {r : Region} {f : Frame} (hf : f.HasPixels) {h : ℚ} (hh : 0 < h)
    (hr : r.isDegenerate = false) (hshows : r.ShowsOn (Size.ofHeight f.proportion h) f) :
    (r.throughCanvas (Size.ofHeight f.proportion h) f).isSome = true := by
  obtain ⟨hright, hbottom, hscale⟩ := hshows
  have hσ : 0 < (f.height : ℚ) / h := div_pos (Nat.cast_pos.mpr hf.2) hh
  obtain ⟨hsx, hsy⟩ := axisScale_ofHeight hf hh
  unfold isDegenerate at hr
  simp only [Bool.or_eq_false_iff, decide_eq_false_iff_not, not_lt] at hr
  obtain ⟨hwidth, hheight⟩ := hr
  rw [hsy, ofNat_eq, ofNat_eq, literal_eq, Nat.cast_one, rational_le, rational_lt, rational_lt,
    Nat.cast_sub (by omega), Nat.cast_sub (by omega)] at hscale
  push_cast at hscale
  -- Each side keeps two pixels, also behind a position that was rounded up.
  have htwoX := two_le_side hσ hwidth hright (hscale.imp_right And.left)
  have htwoY := two_le_side hσ hheight hbottom (hscale.imp_right And.right)
  have hlarge : (((r.toDisplay (Size.ofHeight f.proportion h) f).toSource
      (Size.ofHeight f.proportion h) f).isDegenerate) = false := by
    unfold isDegenerate toDisplay Box.toSource
    simp only [hsx, hsy, Bool.or_eq_false_iff, decide_eq_false_iff_not, not_lt]
    exact ⟨two_le_floorEven htwoX, two_le_floorEven htwoY⟩
  unfold throughCanvas
  simp only [hlarge]
  rfl

end Region
end GifEdit
