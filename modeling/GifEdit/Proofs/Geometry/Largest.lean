/-
  GifEdit.Proofs.Geometry.Largest
  ───────────────────────────────
  **NO LARGER CANVAS WOULD FIT.**

  Sizes of one proportion are told apart by their heights (`aspect_eq_iff`).  The canvas of
  a container fills a side of it, and on that side no other size of its proportion can be
  longer; so the canvas is the largest of all that fit (`le_of_fills`).

  On it both axes have one scale, and what a point or a box covers is what it covers at the
  size of the video, once all its numbers are multiplied by this scale.

  Main result: `canvas_is_largest`.
-/
import GifEdit.Proofs.Geometry.Fitting
import GifEdit.Proofs.Geometry.Rescaling

namespace GifEdit

open Exact

/-! ## §1. Sizes of one proportion. -/

namespace Size

variable {a h k : ℚ} {s container : Size Exact} {f : Frame}

/-- A number that is divided to a positive rational is rational, and so is the divisor. -/
theorem exists_of_div_eq {x y : Exact} (ha : 0 < a) (hy : ¬ y ≤ 0) (h : x / y = rational a) :
    ∃ p q : ℚ, x = rational p ∧ y = rational q ∧ 0 < q := by
  rw [literal_eq, Nat.cast_zero] at hy
  cases y with
  | rational q =>
      rw [rational_le, not_le] at hy
      cases x with
      | rational p => exact ⟨p, q, rfl, rfl, hy⟩
      | undefined => exact nomatch h
      | posInfinity =>
          rw [posInfinity_div hy] at h
          exact nomatch h
      | negInfinity =>
          rw [negInfinity_div hy] at h
          exact nomatch h
  | negInfinity => exact absurd rfl hy
  | posInfinity =>
      cases x with
      | rational p => exact absurd (Exact.rational.inj h) ha.ne
      | undefined => exact nomatch h
      | posInfinity => exact nomatch h
      | negInfinity => exact nomatch h
  | undefined => cases x <;> exact nomatch h

/-- **Sizes of one proportion differ in their heights only.** -/
theorem aspect_eq_iff (ha : 0 < a) : s.aspect = rational a ↔ ∃ h, 0 < h ∧ s = ofHeight a h := by
  obtain ⟨width, height⟩ := s
  constructor
  · intro haspect
    unfold aspect at haspect
    split at haspect
    · rw [literal_eq, Nat.cast_zero] at haspect
      exact absurd (Exact.rational.inj haspect) ha.ne
    · rename_i hheight
      obtain ⟨p, h, hp, rfl, hh⟩ := exists_of_div_eq ha hheight haspect
      obtain rfl : width = rational p := hp
      refine ⟨h, hh, ?_⟩
      have hquotient : rational p / rational h = rational a := haspect
      rw [rational_div hh.ne'] at hquotient
      have hproduct : p = a * h := (div_eq_iff hh.ne').mp (Exact.rational.inj hquotient)
      unfold ofHeight
      rw [hproduct, mul_comm]
  · rintro ⟨h, hh, hs⟩
    obtain ⟨rfl, rfl⟩ := Size.mk.inj hs
    unfold aspect
    rw [if_neg (not_le_of_pos (zero_lt_rational.mpr hh)), rational_div hh.ne', mul_div_cancel_left₀ a hh.ne']

/-- Finite sides that are to each other as those of a video. -/
def HasProportionsOf (s : Size Exact) (f : Frame) : Prop :=
  ∃ w h : ℚ, s = ⟨rational w, rational h⟩ ∧ 0 < w ∧ 0 < h ∧ w * f.height = h * f.width

theorem hasProportionsOf_ofHeight (hf : f.HasPixels) (hh : 0 < h) :
    (ofHeight f.proportion h).HasProportionsOf f := by
  have hheight : (f.height : ℚ) ≠ 0 := Nat.cast_ne_zero.mpr hf.2.ne'
  refine ⟨h * f.proportion, h, rfl, mul_pos hh (Frame.proportion_pos hf), hh, ?_⟩
  unfold Frame.proportion
  rw [mul_assoc, div_mul_cancel₀ _ hheight]

/-- **What fills a side is the largest of its proportion.** -/
theorem le_of_fills (ha : 0 < a) (hfills : (ofHeight a h).Fills container)
    (hwidth : (ofHeight a k).width ≤ container.width)
    (hheight : (ofHeight a k).height ≤ container.height) :
    (ofHeight a k).width ≤ (ofHeight a h).width
      ∧ (ofHeight a k).height ≤ (ofHeight a h).height := by
  have hle : k ≤ h := by
    rcases hfills.side with hside | hside
    · rw [← hside] at hwidth
      exact (mul_le_mul_iff_left₀ ha).mp (rational_le.mp hwidth)
    · rw [← hside] at hheight
      exact rational_le.mp hheight
  exact ⟨rational_le.mpr (mul_le_mul_of_nonneg_right hle ha.le), rational_le.mpr hle⟩

end Size

/-! ## §2. At the size of the video. -/

/-- The canvas that shows a video pixel by pixel. -/
def Frame.canvas (f : Frame) : Size Exact := ⟨rational f.width, rational f.height⟩

variable {f : Frame} {canvas : Size Exact} {k : ℚ}

theorem axisScale_self {n : ℕ} (hn : 0 < n) : axisScale n (rational n) = rational 1 := by
  have hpos : (0 : ℚ) < n := Nat.cast_pos.mpr hn
  rw [axisScale_rational n hpos, div_self hpos.ne']

/-- One scale on both axes of a canvas. -/
structure Size.HasScale (canvas : Size Exact) (f : Frame) (k : ℚ) : Prop where
  width : axisScale f.width canvas.width = rational k
  height : axisScale f.height canvas.height = rational k

/-- **A point of the canvas** is a point of the video, scaled. -/
theorem Size.HasScale.point (hscale : canvas.HasScale f k) (hf : f.HasPixels) (p : Point Exact) :
    p.toSource canvas f
      = Point.toSource ⟨p.x * rational k, p.y * rational k⟩ f.canvas f := by
  unfold Point.toSource Frame.canvas
  simp only [hscale.width, hscale.height, axisScale_self hf.1, axisScale_self hf.2,
    mul_one_rational]

/-- **A box on the canvas** covers what it covers of the video, scaled. -/
theorem Size.HasScale.box (hscale : canvas.HasScale f k) (hf : f.HasPixels) (b : Box Exact) :
    b.toSource canvas f = (b.scaled (rational k) (rational k)).toSource f.canvas f := by
  unfold Box.toSource Box.scaled Frame.canvas
  simp only [hscale.width, hscale.height, axisScale_self hf.1, axisScale_self hf.2,
    mul_one_rational]

/-! ## §3. The canvas of a container. -/

namespace Size

/-- **THE CANVAS IS THE LARGEST THAT FITS.**  For a container with positive sides, of which
at most one is endless, and a video with pixels, the canvas has exactly the proportions of
the video, lies in the container and fills one of its sides.  So every size of these
proportions that fits is no larger.  And both axes of the canvas have one scale, through
which points and boxes are brought to the video. -/
theorem canvas_is_largest (container : Size Exact) (f : Frame) (hf : f.HasPixels)
    (hroom : container.hasRoom = true) :
    let canvas := container.fit f
    canvas.HasProportionsOf f ∧ canvas.aspect = f.aspect
      ∧ canvas.Fills container
      ∧ (∀ size : Size Exact, size.aspect = f.aspect →
          size.width ≤ container.width → size.height ≤ container.height →
          size.width ≤ canvas.width ∧ size.height ≤ canvas.height)
      ∧ ∃ k : ℚ, 0 < k ∧ canvas.HasScale f k
        ∧ (∀ p : Point Exact, p.toSource canvas f
            = Point.toSource ⟨p.x * rational k, p.y * rational k⟩ f.canvas f)
        ∧ ∀ b : Box Exact, b.toSource canvas f
            = (b.scaled (rational k) (rational k)).toSource f.canvas f := by
  intro canvas
  have ha := Frame.proportion_pos hf
  obtain ⟨h, hh, hfit, hfills⟩ := fit_fills hf hroom
  have hcanvas : canvas = ofHeight f.proportion h := hfit
  obtain ⟨hx, hy⟩ := axisScale_ofHeight hf hh
  have hscale : canvas.HasScale f (f.height / h) := by
    rw [hcanvas]
    exact ⟨hx, hy⟩
  rw [Frame.aspect_eq hf]
  refine ⟨?_, ?_, ?_, ?_, f.height / h, div_pos (Nat.cast_pos.mpr hf.2) hh, hscale,
    hscale.point hf, hscale.box hf⟩
  · rw [hcanvas]
    exact hasProportionsOf_ofHeight hf hh
  · exact (aspect_eq_iff ha).mpr ⟨h, hh, hcanvas⟩
  · rw [hcanvas]
    exact hfills
  · intro size hsize hwidth hheight
    -- Canvases of these proportions differ in height only.
    obtain ⟨k, -, rfl⟩ := (aspect_eq_iff ha).mp hsize
    rw [hcanvas]
    exact le_of_fills ha hfills hwidth hheight

/-- A wide container is filled in its height, and a video that stands upright in its width. -/
theorem canvas_is_largest_wide :
    let wide : Size Exact := ⟨1000, 360⟩
    let narrow : Size Exact := ⟨90, 400⟩
    let landscape : Frame := ⟨1920, 1080⟩
    let portrait : Frame := ⟨720, 1280⟩
    wide.fit landscape = ⟨640, 360⟩ ∧ narrow.fit portrait = ⟨90, 160⟩
      ∧ (wide.fit landscape).Fills wide ∧ (narrow.fit portrait).Fills narrow
      ∧ (∀ size : Size Exact, size.aspect = landscape.aspect →
          size.width ≤ 1000 → size.height ≤ 360 → size.width ≤ 640)
      ∧ (narrow.fit portrait).HasScale portrait 8 := by
  intro wide narrow landscape portrait
  have hwide : wide.fit landscape = ⟨640, 360⟩ := by decide +kernel
  have hnarrow : narrow.fit portrait = ⟨90, 160⟩ := by decide +kernel
  obtain ⟨-, -, hfills, hlargest, -⟩ :=
    canvas_is_largest wide landscape ⟨by decide, by decide⟩ (by decide +kernel)
  obtain ⟨-, -, hfills', -, k, -, hscale, -⟩ :=
    canvas_is_largest narrow portrait ⟨by decide, by decide⟩ (by decide +kernel)
  refine ⟨hwide, hnarrow, hfills, hfills', fun size hsize hwidth hheight => ?_, ?_⟩
  · have hle := (hlargest size hsize hwidth hheight).1
    rwa [hwide] at hle
  · have hk := hscale.height
    rw [hnarrow] at hk
    have hheight : axisScale 1280 (160 : Exact) = rational 8 := by decide +kernel
    obtain rfl : k = 8 := Exact.rational.inj (hk.symm.trans hheight)
    exact hscale

end Size
end GifEdit
