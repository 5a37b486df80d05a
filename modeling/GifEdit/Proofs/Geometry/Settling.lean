/-
  GifEdit.Proofs.Geometry.Settling
  ────────────────────────────────
  **A REGION THAT IS SHOWN AND READ BACK AGAIN.**

  On an axis where a canvas unit is `σ` pixels wide, some pixels are shown as `n` units and
  read back as `m` pixels.  Those `m` pixels are shown as `n` units again, so showing and
  reading back once more changes nothing.  What keeps a region from settling at once is
  what happens to `m` afterwards:

      position    is cut off at the frame only where nothing is left of the region, and
                  else comes back where it is
      side        loses a pixel if it is odd, and that pixel may cost it a whole canvas
                  unit the next time

  So a side never grows.  It stays exactly if the box that shows it keeps all but half a
  pixel of it, which is always so where a canvas unit is no wider than a pixel, and else it
  loses less than `σ/2 + 3/2` pixels.

  Main results: `sideSettles`, for one axis, and `Region.throughCanvas_again`.
-/
import GifEdit.Proofs.Geometry.Rounding

namespace GifEdit

open Exact

/-! ## §1. Pixels shown in canvas units. -/

/-- `pixels` pixels are `n` canvas units of `σ` pixels, and these are `m` pixels. -/
structure ShownAs (σ : ℚ) (pixels n m : ℕ) : Prop where
  unit_gt : pixels - σ / 2 < n * σ
  unit_le : n * σ ≤ pixels + σ / 2
  pixel_gt : n * σ - 1 / 2 < m
  pixel_le : m ≤ n * σ + 1 / 2

namespace ShownAs

variable {σ : ℚ} {pixels pixels' n n' m m' : ℕ}

/-- More pixels are no fewer units, and come back as no fewer pixels. -/
theorem le_of_le (hσ : 0 < σ) (h : ShownAs σ pixels n m) (h' : ShownAs σ pixels' n' m')
    (hle : pixels ≤ pixels') : n ≤ n' ∧ m ≤ m' := by
  have hpixels : (pixels : ℚ) ≤ pixels' := by exact_mod_cast hle
  have hn : n ≤ n' := by
    by_contra hlt
    have hstep : ((n' : ℚ) + 1) ≤ n := by exact_mod_cast not_le.mp hlt
    have hmul := mul_le_mul_of_nonneg_right hstep hσ.le
    linarith [h.unit_le, h'.unit_gt]
  refine ⟨hn, ?_⟩
  by_contra hlt
  have hstep : ((m' : ℚ) + 1) ≤ m := by exact_mod_cast not_le.mp hlt
  have hcast : (n : ℚ) ≤ n' := by exact_mod_cast hn
  have hmul := mul_le_mul_of_nonneg_right hcast hσ.le
  linarith [h.pixel_le, h'.pixel_gt]

/-- A number of pixels is shown and read back in one way. -/
theorem unique (hσ : 0 < σ) (h : ShownAs σ pixels n m) (h' : ShownAs σ pixels n' m') :
    n = n' ∧ m = m' := by
  obtain ⟨hn, hm⟩ := h.le_of_le hσ h' le_rfl
  obtain ⟨hn', hm'⟩ := h'.le_of_le hσ h le_rfl
  exact ⟨le_antisymm hn hn', le_antisymm hm hm'⟩

/-- Where a canvas unit is no wider than a pixel, every pixel comes back. -/
theorem eq_of_fine (hfine : σ ≤ 1) (h : ShownAs σ pixels n m) : m = pixels := by
  have hup : (m : ℚ) ≤ pixels + (σ / 2 + 1 / 2) := by linarith [h.unit_le, h.pixel_le]
  have hdown : (pixels : ℚ) - (σ / 2 + 1 / 2) < m := by linarith [h.unit_gt, h.pixel_gt]
  rcases hfine.lt_or_eq with hlt | rfl
  · have hless : (m : ℚ) < pixels + 1 := by linarith
    have hmore : (pixels : ℚ) < m + 1 := by linarith
    have hless' : m < pixels + 1 := by exact_mod_cast hless
    have hmore' : pixels < m + 1 := by exact_mod_cast hmore
    omega
  · -- Here both roundings start from whole numbers.
    have hnless : (n : ℚ) < pixels + 1 := by linarith [h.unit_le]
    have hnmore : (pixels : ℚ) < n + 1 := by linarith [h.unit_gt]
    have hmless : (m : ℚ) < n + 1 := by linarith [h.pixel_le]
    have hmmore : (n : ℚ) < m + 1 := by linarith [h.pixel_gt]
    have hnless' : n < pixels + 1 := by exact_mod_cast hnless
    have hnmore' : pixels < n + 1 := by exact_mod_cast hnmore
    have hmless' : m < n + 1 := by exact_mod_cast hmless
    have hmmore' : n < m + 1 := by exact_mod_cast hmmore
    omega

/-- **Pixels that were read back are shown as before.** -/
theorem again (h : ShownAs σ pixels n m) : ShownAs σ m n m := by
  rcases le_or_gt σ 1 with hfine | hcoarse
  · obtain rfl := h.eq_of_fine hfine
    exact h
  · -- The nearest pixel is closer than half a canvas unit.
    exact ⟨by linarith [h.pixel_le], by linarith [h.pixel_gt], h.pixel_gt, h.pixel_le⟩

end ShownAs

/-! ## §2. Reading back. -/

/-- What some pixels are once they were shown in whole canvas units, if `limit` pixels are
left for them. -/
def readBack {α : Type} [Scalar α] (pixels : ℕ) (scale : α) (limit : ℕ) : ℕ :=
  roundClamped (unscaled pixels scale * scale) limit

section Axis

variable {σ : ℚ} {pixels limit : ℕ}

/-- Every number of pixels is shown as canvas pixels, and read back within its limit. -/
theorem exists_shownAs (hσ : 0 < σ) (hlimit : limit ≤ Scalar.doubleWordMax) (pixels : ℕ) :
    ∃ n m : ℕ, ShownAs σ pixels n m
      ∧ unscaled pixels (rational σ) * rational σ = rational (n * σ)
      ∧ readBack pixels (rational σ) limit = min m limit := by
  obtain ⟨n, hn, hlow, hhigh⟩ := unscaled_mul_eq hσ pixels
  obtain ⟨m, hm, hlow', hhigh'⟩ := roundClamped_eq (mul_nonneg (Nat.cast_nonneg n) hσ.le) limit
  refine ⟨n, m, ⟨hlow, hhigh, hlow', hhigh'⟩, hn, ?_⟩
  unfold readBack
  rw [hn, hm]
  omega

/-- A position before the end of the frame comes back where it is. -/
theorem readBack_again (hσ : 0 < σ) (hlimit : limit ≤ Scalar.doubleWordMax)
    (hinside : readBack pixels (rational σ) limit < limit) :
    readBack (readBack pixels (rational σ) limit) (rational σ) limit
      = readBack pixels (rational σ) limit := by
  obtain ⟨n, m, hshown, -, honce⟩ := exists_shownAs hσ hlimit pixels
  have hm : readBack pixels (rational σ) limit = m := by omega
  obtain ⟨n', m', hshown', -, htwice⟩ := exists_shownAs hσ hlimit m
  obtain ⟨-, rfl⟩ := hshown'.unique hσ hshown.again
  rw [hm, htwice]
  omega

/-- A side of `once` pixels that is read back again is one of `twice` pixels. -/
structure SideSettles (σ : ℚ) (once twice : ℕ) : Prop where
  le : twice ≤ once
  lt : (once : ℚ) < twice + σ / 2 + 3 / 2
  eq_iff : twice = once ↔
    Scalar.ofNat once ≤ unscaled once (rational σ) * rational σ + (0.5 : Exact)
  fine : σ ≤ 1 → twice = once

/-- An even side, and the one that fewer pixels leave of it. -/
theorem floorEven_min {m m' : ℕ} (limit : ℕ) (hm : m' ≤ m) :
    let once := floorEven (min m limit)
    let twice := floorEven (min m' limit)
    twice ≤ once ∧ (twice = once ↔ once ≤ m') ∧ (twice = once ∨ m' ≤ twice + 1) := by
  unfold floorEven
  omega

/-- **A side that is read back again.** -/
theorem sideSettles (hσ : 0 < σ) (hlimit : limit ≤ Scalar.doubleWordMax) (pixels : ℕ) :
    let once := floorEven (readBack pixels (rational σ) limit)
    SideSettles σ once (floorEven (readBack once (rational σ) limit)) := by
  intro once
  obtain ⟨n, m, hshown, -, honce⟩ := exists_shownAs hσ hlimit pixels
  obtain ⟨n', m', hshown', hunits, htwice⟩ := exists_shownAs hσ hlimit once
  have honce : once = floorEven (min m limit) := congrArg floorEven honce
  -- The side is no longer than what it was read back as, so it is shown by no more units.
  have honce_le : once ≤ m := by
    rw [honce]
    exact (floorEven_le _).trans (min_le_left m limit)
  have hm : m' ≤ m := (hshown'.le_of_le hσ hshown.again honce_le).2
  obtain ⟨hle, heq, hlost⟩ := floorEven_min limit hm
  rw [← honce] at hle heq hlost
  rw [htwice]
  constructor
  case le => exact hle
  case fine => exact fun hfine => heq.mpr (hshown'.eq_of_fine hfine).ge
  case lt =>
    rcases hlost with hsame | hnear
    · rw [hsame]
      linarith
    · have hcast : (m' : ℚ) ≤ floorEven (min m' limit) + 1 := by exact_mod_cast hnear
      linarith [hshown'.unit_gt, hshown'.pixel_gt]
  case eq_iff =>
    rw [heq, hunits, ofNat_eq, fraction_eq, rational_add, rational_le]
    norm_num
    constructor
    · intro hkept
      have hcast : (once : ℚ) ≤ m' := by exact_mod_cast hkept
      linarith [hshown'.pixel_le]
    · intro hbox
      -- The nearest pixel is the last one that is not too far to the right of the box.
      have hless : (once : ℚ) < m' + 1 := by linarith [hshown'.pixel_gt]
      exact Nat.lt_succ_iff.mp (by exact_mod_cast hless)

/-- **An axis that is read back again**, if two pixels were left of the region. -/
theorem axisSettles (hσ : 0 < σ) (hlimit : limit ≤ Scalar.wordMax) {x w x₁ w₁ : ℕ}
    (hx : x₁ = readBack x (rational σ) limit)
    (hw : w₁ = floorEven (readBack w (rational σ) (limit - x₁))) (hleft : 2 ≤ w₁) :
    readBack x₁ (rational σ) limit = x₁
      ∧ SideSettles σ w₁ (floorEven (readBack w₁ (rational σ) (limit - x₁))) := by
  have hword : Scalar.wordMax ≤ Scalar.doubleWordMax := by decide
  constructor
  · have hroom : w₁ ≤ limit - x₁ := by
      rw [hw]
      exact (floorEven_le _).trans (roundClamped_le _ _)
    rw [hx] at hroom ⊢
    exact readBack_again hσ (hlimit.trans hword) (by omega)
  · rw [hw]
    exact sideSettles hσ (((Nat.sub_le limit x₁).trans hlimit).trans hword) w

end Axis
/-! ## §3. Regions. -/

namespace Region

section Shrinking

variable {α : Type} [Scalar α]

/-- `r'` lies where `r` lies and is no larger, and neither side lost more than half a canvas
unit and a pixel and a half. -/
structure ShrinksTo (r : Region) (scale : α) (r' : Region) : Prop where
  x : r'.x = r.x
  y : r'.y = r.y
  width_le : r'.width ≤ r.width
  height_le : r'.height ≤ r.height
  width_lt : Scalar.ofNat r.width < Scalar.ofNat r'.width + scale / 2 + 1.5
  height_lt : Scalar.ofNat r.height < Scalar.ofNat r'.height + scale / 2 + 1.5

/-- The box that shows the region keeps all but half a pixel of either side. -/
def KeptOn (r : Region) (canvas : Size α) (f : Frame) : Prop :=
  let box := r.toDisplay canvas f
  Scalar.ofNat r.width ≤ box.width * axisScale f.width canvas.width + 0.5
    ∧ Scalar.ofNat r.height ≤ box.height * axisScale f.height canvas.height + 0.5

/-- What comes back through a canvas is not empty. -/
theorem throughCanvas_eq_some {r r' : Region} {canvas : Size α} {f : Frame} :
    r.throughCanvas canvas f = some r' ↔ r'.isDegenerate = false
      ∧ r' = (r.toDisplay canvas f).toSource canvas f := by
  unfold throughCanvas
  dsimp only
  split
  · rename_i hdegenerate
    simp only [reduceCtorEq, false_iff, not_and]
    rintro hlarge rfl
    exact absurd (hdegenerate.symm.trans hlarge) (by decide)
  · rename_i hlarge
    rw [Bool.not_eq_true] at hlarge
    constructor
    · rintro ⟨rfl⟩
      exact ⟨hlarge, rfl⟩
    · rintro ⟨-, rfl⟩
      rfl

/-- Nothing comes back where the region has become empty. -/
theorem throughCanvas_eq_none {r : Region} {canvas : Size α} {f : Frame} :
    r.throughCanvas canvas f = none
      ↔ ((r.toDisplay canvas f).toSource canvas f).isDegenerate = true := by
  unfold throughCanvas
  dsimp only
  split
  · rename_i hdegenerate
    exact ⟨fun _ => hdegenerate, fun _ => rfl⟩
  · rename_i hlarge
    exact ⟨fun h => (nomatch h), fun h => absurd h hlarge⟩

/-- A region that is not empty has sides of two pixels. -/
theorem two_le_sides {r : Region} (h : r.isDegenerate = false) : 2 ≤ r.width ∧ 2 ≤ r.height := by
  unfold isDegenerate at h
  simp only [Bool.or_eq_false_iff, decide_eq_false_iff_not, not_lt] at h
  exact h

end Shrinking

variable {r r₁ r₂ : Region} {f : Frame} {h : ℚ}

/-- The loss of a side, over numbers of the editor. -/
theorem ofNat_lt_of_lt {w w' : ℕ} {σ : ℚ} (hlt : (w : ℚ) < w' + σ / 2 + 3 / 2) :
    (Scalar.ofNat w : Exact) < Scalar.ofNat w' + rational σ / 2 + 1.5 := by
  rw [ofNat_eq, ofNat_eq, literal_eq, fraction_eq, rational_div (by norm_num), rational_add,
    rational_add, rational_lt]
  norm_num
  linarith

/-- Reading back goes axis by axis. -/
theorem readBack_eq (hf : f.HasPixels) (hh : 0 < h) (r : Region) :
    let canvas := Size.ofHeight f.proportion h
    let σ : Exact := rational (f.height / h)
    let back := (r.toDisplay canvas f).toSource canvas f
    back.x = readBack r.x σ f.width ∧ back.y = readBack r.y σ f.height
      ∧ back.width = floorEven (readBack r.width σ (f.width - back.x))
      ∧ back.height = floorEven (readBack r.height σ (f.height - back.y)) := by
  obtain ⟨hsx, hsy⟩ := axisScale_ofHeight hf hh
  unfold readBack toDisplay Box.toSource
  simp only [hsx, hsy, and_self]

/-- **A region that was read back, shown and read back again.** -/
theorem readAgain (hf : f.HasPixels) (hh : 0 < h) (hwidth : f.width ≤ Scalar.wordMax)
    (hheight : f.height ≤ Scalar.wordMax)
    (honce : r.throughCanvas (Size.ofHeight f.proportion h) f = some r₁) :
    let canvas := Size.ofHeight f.proportion h
    let again := (r₁.toDisplay canvas f).toSource canvas f
    r₁.ShrinksTo (axisScale f.height canvas.height) again
      ∧ (again = r₁ ↔ r₁.KeptOn canvas f)
      ∧ (axisScale f.height canvas.height ≤ 1 → again = r₁) := by
  intro canvas again
  obtain ⟨hlarge, hr₁⟩ := throughCanvas_eq_some.mp honce
  obtain ⟨hwide, hhigh⟩ := two_le_sides hlarge
  obtain ⟨hx, hy, hw, hv⟩ := readBack_eq hf hh r
  rw [← hr₁] at hx hy hw hv
  obtain ⟨hsx, hsy⟩ := axisScale_ofHeight hf hh
  have hσ : 0 < (f.height : ℚ) / h := div_pos (Nat.cast_pos.mpr hf.2) hh
  -- Both axes settle in one way; only the names of what is read differ.
  obtain ⟨hxagain, hacross⟩ := axisSettles hσ hwidth hx hw hwide
  obtain ⟨hyagain, hdown⟩ := axisSettles hσ hheight hy hv hhigh
  obtain ⟨hx', hy', hw', hv'⟩ := readBack_eq hf hh r₁
  replace hxagain : again.x = r₁.x := hx'.trans hxagain
  replace hyagain : again.y = r₁.y := hy'.trans hyagain
  replace hacross : SideSettles (f.height / h) r₁.width again.width := by
    rw [← hxagain] at hacross
    exact hw' ▸ hacross
  replace hdown : SideSettles (f.height / h) r₁.height again.height := by
    rw [← hyagain] at hdown
    exact hv' ▸ hdown
  -- The corner has settled, so a region is the same as soon as its sides are.
  have hsame : again = r₁ ↔ again.width = r₁.width ∧ again.height = r₁.height := by
    constructor
    · intro heq
      exact ⟨congrArg Region.width heq, congrArg Region.height heq⟩
    · rintro ⟨hwidth, hheight⟩
      show Region.mk again.x again.y again.width again.height = _
      rw [hxagain, hyagain, hwidth, hheight]
  refine ⟨⟨hxagain, hyagain, hacross.le, hdown.le, ?_, ?_⟩, ?_, ?_⟩
  · rw [hsy]
    exact ofNat_lt_of_lt hacross.lt
  · rw [hsy]
    exact ofNat_lt_of_lt hdown.lt
  · unfold KeptOn toDisplay
    rw [hsame, show axisScale f.width canvas.width = _ from hsx,
      show axisScale f.height canvas.height = _ from hsy]
    exact and_congr hacross.eq_iff hdown.eq_iff
  · rw [hsy, literal_eq, Nat.cast_one, rational_le]
    exact fun hfine => hsame.mpr ⟨hacross.fine hfine, hdown.fine hfine⟩

/-- An even side that is too short is gone. -/
theorem side_eq_zero {r : Region} (heven : r.isEven = true) (hr : r.isDegenerate = true) :
    r.width = 0 ∨ r.height = 0 := by
  unfold isEven at heven
  unfold isDegenerate at hr
  simp only [Bool.and_eq_true, Bool.or_eq_true, decide_eq_true_eq] at heven hr
  omega

/-- **What is left of a region that was read back before.**  It is lost only if a side is no
more than half a canvas unit and a pixel and a half. -/
theorem throughCanvas_again (hf : f.HasPixels) (hh : 0 < h) (hwidth : f.width ≤ Scalar.wordMax)
    (hheight : f.height ≤ Scalar.wordMax)
    (honce : r.throughCanvas (Size.ofHeight f.proportion h) f = some r₁) :
    let canvas := Size.ofHeight f.proportion h
    let scale := axisScale f.height canvas.height
    (∀ r₂ ∈ r₁.throughCanvas canvas f, r₁.ShrinksTo scale r₂)
      ∧ (r₁.throughCanvas canvas f = none →
          Scalar.ofNat r₁.width < scale / 2 + 1.5 ∨ Scalar.ofNat r₁.height < scale / 2 + 1.5)
      ∧ (r₁.throughCanvas canvas f = some r₁ ↔ r₁.KeptOn canvas f)
      ∧ (scale ≤ 1 → r₁.throughCanvas canvas f = some r₁) := by
  intro canvas scale
  obtain ⟨hlarge, -⟩ := throughCanvas_eq_some.mp honce
  obtain ⟨hshrinks, hkept, hfine⟩ := readAgain hf hh hwidth hheight honce
  have hself : r₁.throughCanvas canvas f = some r₁
      ↔ (r₁.toDisplay canvas f).toSource canvas f = r₁ := by
    rw [throughCanvas_eq_some]
    exact ⟨fun h => h.2.symm, fun h => ⟨hlarge, h.symm⟩⟩
  refine ⟨fun r₂ hr₂ => ?_, fun hnone => ?_, hself.trans hkept, fun hscale =>
    hself.mpr (hfine hscale)⟩
  · obtain ⟨-, rfl⟩ := throughCanvas_eq_some.mp hr₂
    exact hshrinks
  · have hgone := side_eq_zero (Box.toSource_isEven _ canvas f) (throughCanvas_eq_none.mp hnone)
    have hscale : scale = rational (f.height / h) := (axisScale_ofHeight hf hh).2
    -- The half of the scale, from nothing.
    have hzero : (Scalar.ofNat 0 : Exact) + scale / 2 = scale / 2 := by
      rw [hscale, ofNat_eq, literal_eq, rational_div (by norm_num), rational_add, Nat.cast_zero,
        zero_add]
    rcases hgone with hwide | hhigh
    · have hlost := hshrinks.width_lt
      rw [hwide] at hlost
      exact .inl (hzero ▸ hlost)
    · have hlost := hshrinks.height_lt
      rw [hhigh] at hlost
      exact .inr (hzero ▸ hlost)

/-- Even sides shrink by two pixels or not at all. -/
theorem ShrinksTo.sides_lt {α : Type} [Scalar α] {scale : α} (h : r₁.ShrinksTo scale r₂)
    (hr₁ : r₁.isEven = true) (hr₂ : r₂.isEven = true) (hne : r₂ ≠ r₁) :
    r₂.width + r₂.height + 2 ≤ r₁.width + r₁.height := by
  unfold isEven at hr₁ hr₂
  simp only [Bool.and_eq_true, decide_eq_true_eq] at hr₁ hr₂
  have hwidth := h.width_le
  have hheight := h.height_le
  have hsides : r₂.width ≠ r₁.width ∨ r₂.height ≠ r₁.height := by
    by_contra hsame
    push Not at hsame
    refine hne ?_
    show Region.mk r₂.x r₂.y r₂.width r₂.height = _
    rw [h.x, h.y, hsame.1, hsame.2]
  omega

end Region
end GifEdit
