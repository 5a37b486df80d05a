/-
  GifEdit.Proofs.Geometry.Nearness
  ────────────────────────────────
  **A REGION COMES BACK NEAR WHERE IT WAS.**

  A display may have any proportions, so each axis has a scale of its own, `σ` pixels a
  display unit.  A region is shown in whole units and read back in whole pixels, and each of
  the two roundings moves a number by a half at most:

      position   comes back as   x ± (σ/2 + 1/2)
      side       comes back as   w ± (σ/2 + 1/2), or a pixel less to make it even

  The frame costs nothing more.  A position beyond it is put on its edge, nearer to where it
  was; and what the position leaves for the side is short of the side by no more than the
  position moved on.

  Where a display unit is no wider than a pixel, nothing moves at all.

  Main result: `region_comes_back_near`.
-/
import GifEdit.Proofs.Geometry.Rescaling
import GifEdit.Proofs.Geometry.Settling

namespace GifEdit

open Exact

/-! ## §1. Distances along an axis. -/

section Axis

variable {σ d : ℚ} {x w m limit : ℕ}

/-- What some pixels are read back as, before the frame cuts anything off. -/
theorem ShownAs.near {pixels n : ℕ} (h : ShownAs σ pixels n m) :
    |(m : ℚ) - pixels| ≤ σ / 2 + 1 / 2 := by
  rw [abs_le]
  constructor
  · linarith [h.unit_gt, h.pixel_gt]
  · linarith [h.unit_le, h.pixel_le]

/-- The edge of the frame is nearer to a position inside than what lies beyond it. -/
theorem min_near (hx : x ≤ limit) (hm : |(m : ℚ) - x| ≤ d) :
    |((min m limit : ℕ) : ℚ) - x| ≤ d := by
  rcases le_total m limit with hin | hout
  · rw [min_eq_left hin]
    exact hm
  · have hx' : (x : ℚ) ≤ limit := by exact_mod_cast hx
    have hout' : (limit : ℚ) ≤ m := by exact_mod_cast hout
    obtain ⟨-, hfar⟩ := abs_le.mp hm
    rw [min_eq_right hout, abs_of_nonneg (sub_nonneg.mpr hx')]
    linarith

/-- A side loses a pixel at most to what is left for it and to becoming even. -/
theorem floorEven_min_near {rest : ℕ} (hm : |(m : ℚ) - w| ≤ d) (hrest : (w : ℚ) - d ≤ rest) :
    |((floorEven (min m rest) : ℕ) : ℚ) - w| ≤ d + 1 := by
  have hnear : floorEven (min m rest) ≤ m ∧ min m rest ≤ floorEven (min m rest) + 1 := by
    unfold floorEven
    omega
  have hhigh : ((floorEven (min m rest) : ℕ) : ℚ) ≤ m := by exact_mod_cast hnear.1
  have hlow : (min (m : ℚ) rest) ≤ (floorEven (min m rest) : ℕ) + 1 := by
    exact_mod_cast hnear.2
  obtain ⟨hshort, hlong⟩ := abs_le.mp hm
  have hleft : (w : ℚ) - d ≤ min (m : ℚ) rest := le_min (by linarith) hrest
  rw [abs_le]
  constructor
  · linarith
  · linarith

end Axis

/-! ## §2. Axes that come back. -/

/-- Along an axis of `scale` pixels a unit, `w` pixels from `x` on came back as `w'` pixels
from `x'` on. -/
structure ComesBackNear {α : Type} [Scalar α] (scale : α) (x w x' w' : ℕ) : Prop where
  position : Scalar.abs (Scalar.ofNat x' - Scalar.ofNat x) ≤ scale / 2 + 0.5
  side : Scalar.abs (Scalar.ofNat w' - Scalar.ofNat w) ≤ scale / 2 + 1.5
  exact : scale ≤ 1 → x' = x ∧ w' = w

section Axis

variable {σ : ℚ} {x w x' w' limit : ℕ}

/-- The distances of an axis, over numbers of the editor. -/
theorem ComesBackNear.of_abs_le (hx : |(x' : ℚ) - x| ≤ σ / 2 + 1 / 2)
    (hw : |(w' : ℚ) - w| ≤ σ / 2 + 3 / 2) (hexact : σ ≤ 1 → x' = x ∧ w' = w) :
    ComesBackNear (rational σ) x w x' w' := by
  constructor
  case exact =>
    rw [literal_eq, Nat.cast_one, rational_le]
    exact hexact
  all_goals
    rw [ofNat_eq, ofNat_eq, rational_sub, abs_rational, literal_eq, fraction_eq,
      rational_div (by norm_num), rational_add, rational_le]
    norm_num
    linarith

/-- **An even side inside the frame comes back near where it was.** -/
theorem readBack_near (hσ : 0 < σ) (hlimit : limit ≤ Scalar.doubleWordMax)
    (hinside : x + w ≤ limit) (heven : w % 2 = 0) :
    let back := readBack x (rational σ) limit
    ComesBackNear (rational σ) x w back
      (floorEven (readBack w (rational σ) (limit - back))) := by
  intro back
  obtain ⟨n, m, hposition, -, hback⟩ := exists_shownAs hσ hlimit x
  obtain ⟨k, l, hside, -, hextent⟩ := exists_shownAs hσ ((Nat.sub_le limit back).trans hlimit) w
  have hbackEq : back = min m limit := hback
  have hnear : |(back : ℚ) - x| ≤ σ / 2 + 1 / 2 := by
    rw [hbackEq]
    exact min_near (by omega) hposition.near
  rw [hextent]
  refine .of_abs_le hnear ?_ ?_
  · -- The position moved on by no more than a side may be short.
    have hin : back ≤ limit := hbackEq.trans_le (min_le_right m limit)
    have hroom : (x : ℚ) + w ≤ limit := by exact_mod_cast hinside
    have hrest : (w : ℚ) - (σ / 2 + 1 / 2) ≤ (limit - back : ℕ) := by
      rw [Nat.cast_sub hin]
      linarith [(abs_le.mp hnear).2]
    have hfar := floorEven_min_near hside.near hrest
    linarith
  · intro hfine
    -- Where a canvas pixel is no more than a source pixel, both come back as they were.
    obtain rfl := hposition.eq_of_fine hfine
    obtain rfl := hside.eq_of_fine hfine
    unfold floorEven
    omega

end Axis

/-! ## §3. Regions. -/

/-- **A REGION THAT IS SHOWN AND READ BACK COMES BACK NEAR WHERE IT WAS**, on a display of
any proportions: along each axis, of so many pixels a unit, its position moves by half a unit
and half a pixel at most, and its side changes by half a unit and a pixel and a half at most.
Where a unit is no wider than a pixel, position and side come back as they were. -/
theorem region_comes_back_near (r : Region) (f : Frame) (display : Size Exact)
    (hf : f.HasPixels) (hwidth : f.width ≤ Scalar.wordMax) (hheight : f.height ≤ Scalar.wordMax)
    (hdisplay : display.isVisible = true) (hright : r.x + r.width ≤ f.width)
    (hbottom : r.y + r.height ≤ f.height) (heven : r.isEven = true) :
    let back := (r.toDisplay display f).toSource display f
    ComesBackNear (Scalar.ofNat f.width / display.width) r.x r.width back.x back.width
      ∧ ComesBackNear (Scalar.ofNat f.height / display.height) r.y r.height back.y
          back.height := by
  have hword : Scalar.wordMax ≤ Scalar.doubleWordMax := by decide
  obtain ⟨p, q, hp, hq, rfl⟩ := Size.isVisible_iff.mp hdisplay
  unfold Region.isEven at heven
  rw [Bool.and_eq_true, decide_eq_true_eq, decide_eq_true_eq] at heven
  -- Both axes are read back in one way, each in its own scale.
  have hacross := readBack_near (div_pos (Nat.cast_pos.mpr hf.1) hp) (hwidth.trans hword)
    hright heven.1
  have hdown := readBack_near (div_pos (Nat.cast_pos.mpr hf.2) hq) (hheight.trans hword)
    hbottom heven.2
  intro back
  simp only [back, Region.toDisplay, Box.toSource, axisScale_rational _ hp,
    axisScale_rational _ hq, ofNat_eq, rational_div hp.ne', rational_div hq.ne']
  exact ⟨hacross, hdown⟩

/-- A display that is too narrow for the video and higher than it: across, a display unit is
1.875 pixels wide and the side loses two of them; down, nothing is lost. -/
theorem region_comes_back_near_narrow :
    let f : Frame := ⟨1920, 1080⟩
    let display : Size Exact := ⟨1024, 1200⟩
    let r : Region := ⟨481, 271, 974, 540⟩
    let back := (r.toDisplay display f).toSource display f
    f.HasPixels ∧ display.isVisible = true ∧ r.x + r.width ≤ f.width
      ∧ r.y + r.height ≤ f.height ∧ r.isEven = true
      ∧ back = ⟨482, 271, 972, 540⟩
      ∧ ComesBackNear (1.875 : Exact) r.x r.width back.x back.width
      ∧ ComesBackNear (0.9 : Exact) r.y r.height back.y back.height := by
  intro f display r back
  have hf : f.HasPixels := ⟨by decide, by decide⟩
  have hdisplay : display.isVisible = true := by decide +kernel
  have hacross : (Scalar.ofNat f.width / display.width : Exact) = 1.875 := by decide +kernel
  have hdown : (Scalar.ofNat f.height / display.height : Exact) = 0.9 := by decide +kernel
  have hnear := region_comes_back_near r f display hf (by decide) (by decide) hdisplay
    (by decide) (by decide) (by decide)
  rw [hacross, hdown] at hnear
  exact ⟨hf, hdisplay, by decide, by decide, by decide, by decide +kernel, hnear⟩

end GifEdit
