/-
  GifEdit.Proofs.Geometry.Fitting
  ───────────────────────────────
  **THE CANVAS HAS THE PROPORTIONS OF THE VIDEO.**

  A container with room, of which one side may be endless, holds a canvas of some
  positive height, and the canvas is as wide as its height and the video ask:

      container wider than the video     its height is the height of the canvas
      any other container                its width is the width of the canvas

  So a canvas fills a side of its container (`fit_fills`), it is known by its height alone, and
  both axes have the same scale.
-/
import GifEdit.Edit.Clip
import GifEdit.Geometry.Letterbox
import GifEdit.Proofs.Scalar.Exact
import Mathlib.Tactic.FieldSimp
import Mathlib.Tactic.Positivity

namespace GifEdit

open Exact

/-! ## §1. The proportions of a video. -/

/-- Width over height. -/
def Frame.proportion (f : Frame) : ℚ := f.width / f.height

/-- Neither side is empty. -/
def Frame.HasPixels (f : Frame) : Prop := 0 < f.width ∧ 0 < f.height

/-- A clip that can be edited shows something. -/
theorem Clip.frame_hasPixels {α : Type} [Scalar α] {c : Clip α} (h : c.check = .ok ()) :
    c.frame.HasPixels := by
  unfold Clip.check at h
  split at h
  · exact nomatch h
  · split at h
    · exact nomatch h
    · rename_i hsides
      simp only [Bool.or_eq_true, decide_eq_true_eq, not_or, not_lt] at hsides
      show 0 < c.width ∧ 0 < c.height
      omega

namespace Frame

variable {f : Frame}

theorem proportion_pos (h : f.HasPixels) : 0 < f.proportion :=
  div_pos (Nat.cast_pos.mpr h.1) (Nat.cast_pos.mpr h.2)

theorem aspect_eq (h : f.HasPixels) : f.aspect = rational f.proportion := by
  have hwidth : f.width ≠ 0 := h.1.ne'
  have hheight : f.height ≠ 0 := h.2.ne'
  unfold aspect ratio proportion
  simp only [hwidth, hheight, decide_false, Bool.or_self, Bool.false_eq_true, if_false, ofNat_eq]
  exact rational_div (Nat.cast_ne_zero.mpr hheight)

end Frame

/-! ## §2. Canvases. -/

namespace Size

/-- The canvas of height `h` for a video of proportions `a`. -/
def ofHeight (a h : ℚ) : Size Exact := ⟨rational (h * a), rational h⟩

/-- Whether a container has positive sides, of which at least one ends. -/
def hasRoom {α : Type} [Scalar α] (container : Size α) : Bool :=
  0 < container.width && 0 < container.height
    && (Scalar.isFinite container.width || Scalar.isFinite container.height)

/-- A canvas by its width instead of its height. -/
theorem ofHeight_div {a p : ℚ} (ha : a ≠ 0) :
    ofHeight a (p / a) = ⟨rational p, rational p / rational a⟩ := by
  unfold ofHeight
  rw [rational_div ha, div_mul_cancel₀ p ha]

/-- A canvas that lies in a container and is as long as it on one side at least. -/
structure Fills (canvas container : Size Exact) : Prop where
  width : canvas.width ≤ container.width
  height : canvas.height ≤ container.height
  side : canvas.width = container.width ∨ canvas.height = container.height

/-- A canvas that is as wide as its container. -/
theorem fills_of_width {a p : ℚ} {height : Exact} (ha : a ≠ 0)
    (hheight : rational (p / a) ≤ height) :
    (ofHeight a (p / a)).Fills ⟨rational p, height⟩ := by
  have hwidth : (ofHeight a (p / a)).width = rational p := by rw [ofHeight_div ha]
  refine ⟨?_, hheight, .inl hwidth⟩
  rw [hwidth]
  exact rational_le.mpr le_rfl

variable {f : Frame} {container : Size Exact}

/-- **A container with room holds a canvas with the proportions of the video**, up to one of
its sides. -/
theorem fit_fills (hf : f.HasPixels) (hroom : container.hasRoom = true) :
    ∃ h, 0 < h ∧ container.fit f = ofHeight f.proportion h
      ∧ (ofHeight f.proportion h).Fills container := by
  obtain ⟨width, height⟩ := container
  unfold hasRoom at hroom
  simp only [Bool.and_eq_true, decide_eq_true_eq] at hroom
  obtain ⟨⟨hwidth, hheight⟩, hfinite⟩ := hroom
  have ha := Frame.proportion_pos hf
  have hempty : isEmpty ⟨width, height⟩ = false := by
    simp only [isEmpty, not_le_of_pos hwidth, not_le_of_pos hheight, decide_false, Bool.or_self]
  have haspect : aspect ⟨width, height⟩ = width / height := if_neg (not_le_of_pos hheight)
  unfold fit
  rw [hempty, haspect, Frame.aspect_eq hf, if_neg Bool.false_ne_true]
  -- The side that decides is never the endless one.
  obtain ⟨q, rfl, hq⟩ | rfl := pos_cases hheight
  · by_cases hwide : rational f.proportion < width / rational q
    · rw [if_pos hwide]
      refine ⟨q, hq, rfl, ?_, rational_le.mpr le_rfl, .inr rfl⟩
      obtain ⟨p, rfl, hp⟩ | rfl := pos_cases hwidth
      · rw [rational_div hq.ne', rational_lt, lt_div_iff₀ hq, mul_comm] at hwide
        exact rational_le.mpr hwide.le
      · exact rational_le_posInfinity
    · obtain ⟨p, rfl, hp⟩ | rfl := pos_cases hwidth
      · rw [if_neg hwide, ← ofHeight_div ha.ne']
        rw [rational_div hq.ne', rational_lt, not_lt, div_le_iff₀ hq] at hwide
        exact ⟨p / f.proportion, div_pos hp ha, rfl,
          fills_of_width ha.ne' (rational_le.mpr ((div_le_iff₀' ha).mpr hwide))⟩
      · refine absurd ?_ hwide
        rw [posInfinity_div hq]
        exact rational_lt_posInfinity
  · obtain ⟨p, rfl, hp⟩ | rfl := pos_cases hwidth
    · have hnarrow : ¬ rational f.proportion < rational p / posInfinity := by
        show ¬ rational f.proportion < rational 0
        rw [rational_lt]
        exact not_lt.mpr ha.le
      rw [if_neg hnarrow, ← ofHeight_div ha.ne']
      exact ⟨p / f.proportion, div_pos hp ha, rfl, fills_of_width ha.ne' rational_le_posInfinity⟩
    · exact nomatch hfinite

/-- In a container with room the canvas has the proportions of the video. -/
theorem fit_eq (hf : f.HasPixels) (hroom : container.hasRoom = true) :
    ∃ h, 0 < h ∧ container.fit f = ofHeight f.proportion h := by
  obtain ⟨h, hh, hfit, -⟩ := fit_fills hf hroom
  exact ⟨h, hh, hfit⟩

end Size

/-! ## §3. Scales. -/

/-- **Both axes have one scale**: the height of the video over the height of the canvas. -/
theorem axisScale_ofHeight {f : Frame} (hf : f.HasPixels) {h : ℚ} (hh : 0 < h) :
    axisScale f.width (Size.ofHeight f.proportion h).width = rational (f.height / h)
      ∧ axisScale f.height (Size.ofHeight f.proportion h).height = rational (f.height / h) := by
  have hwidth : (f.width : ℚ) ≠ 0 := Nat.cast_ne_zero.mpr hf.1.ne'
  have hheight : (f.height : ℚ) ≠ 0 := Nat.cast_ne_zero.mpr hf.2.ne'
  have hwide : 0 < h * f.proportion := mul_pos hh (Frame.proportion_pos hf)
  unfold axisScale Size.ofHeight
  simp only [literal_eq, ofNat_eq, rational_lt, Nat.cast_zero, hh, hwide, if_true,
    rational_div hh.ne', rational_div hwide.ne', and_true]
  unfold Frame.proportion
  refine congrArg rational ?_
  field_simp

end GifEdit
