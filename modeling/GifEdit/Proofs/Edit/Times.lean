/-
  GifEdit.Proofs.Edit.Times
  ─────────────────────────
  **THE TIMES OF AN EDIT, AS RATIONALS.**

  A checked edit has finite times, so over exact numbers its trim and its markers are
  rationals, and the checks are inequalities between them.  `ZoomWindow.Fits` says
  how markers may lie in a stretch of time; two stretches matter:

      the trim itself                 where the timeline keeps its markers
      the trim and a slack around it  where the check of an edit wants them
-/
import GifEdit.Proofs.Edit.Specification
import GifEdit.Proofs.Scalar.Exact
import Mathlib.Tactic.Linarith
import Mathlib.Tactic.NormNum

namespace GifEdit

open Exact

/-! ## §1. The slack and the gap. -/

@[simp] theorem timeSlack_eq : (timeSlack : Exact) = rational (1 / 1000000000) := by
  unfold timeSlack
  norm_num

@[simp] theorem minZoomGap_eq : (minZoomGap : Exact) = rational (1 / 10) := by
  unfold minZoomGap
  norm_num

variable {s e d : ℚ}

theorem TrimRange.isValid_rational :
    TrimRange.isValid (rational s) (rational e) (rational d) = true
      ↔ 0 ≤ s ∧ s < e ∧ e ≤ d + 1 / 1000000000 := by
  unfold TrimRange.isValid
  simp [and_assoc]

theorem TrimRange.exists_of_isValid {start stop duration : Exact}
    (h : TrimRange.isValid start stop duration = true) :
    ∃ s e, start = rational s ∧ stop = rational e ∧ 0 ≤ s ∧ s < e := by
  unfold TrimRange.isValid at h
  simp only [Bool.and_eq_true, decide_eq_true_eq] at h
  obtain ⟨⟨⟨⟨hstart, hstop⟩, hpositive⟩, hordered⟩, -⟩ := h
  obtain ⟨s, rfl⟩ := isFinite_iff.mp hstart
  obtain ⟨e, rfl⟩ := isFinite_iff.mp hstop
  simp only [literal_eq, rational_le, rational_lt, Nat.cast_zero] at hpositive hordered
  exact ⟨s, e, rfl, rfl, hpositive, hordered⟩

theorem TrimRange.contains_rational {q : ℚ} :
    TrimRange.contains ⟨rational s, rational e⟩ (rational q) = true
      ↔ s - 1 / 1000000000 ≤ q ∧ q ≤ e + 1 / 1000000000 := by
  unfold TrimRange.contains
  simp only [timeSlack_eq, rational_sub, rational_add, rational_le, Bool.and_eq_true,
    decide_eq_true_eq]

theorem ZoomWindow.isOrdered_iff {a : ℚ} {x : Exact} :
    ZoomWindow.isOrdered ⟨rational s, rational e⟩ (rational a) x = true
      ↔ ∃ b, x = rational b ∧ a + 1 / 10 ≤ b + 1 / 1000000000 ∧ b ≤ e + 1 / 1000000000 := by
  unfold ZoomWindow.isOrdered
  simp only [Bool.and_eq_true, isFinite_iff, and_assoc]
  constructor
  · rintro ⟨⟨b, rfl⟩, h⟩
    simp only [timeSlack_eq, minZoomGap_eq, rational_add, rational_le, decide_eq_true_eq] at h
    exact ⟨b, rfl, h⟩
  · rintro ⟨b, rfl, h⟩
    simp only [timeSlack_eq, minZoomGap_eq, rational_add, rational_le, decide_eq_true_eq]
    exact ⟨⟨b, rfl⟩, h⟩

/-- The duration of a clip that can be edited. -/
theorem Clip.exists_duration {c : Clip Exact} (h : c.check = .ok ()) :
    ∃ d, c.duration = rational d ∧ 0 < d := by
  unfold Clip.check at h
  split at h
  · exact nomatch h
  · rename_i hduration
    simp only [Bool.or_eq_true, Bool.not_eq_true', decide_eq_true_eq, not_or,
      Bool.not_eq_false] at hduration
    obtain ⟨d, hd⟩ := isFinite_iff.mp hduration.1
    refine ⟨d, hd, ?_⟩
    have hpositive := hduration.2
    rw [hd, literal_eq, rational_le, Nat.cast_zero] at hpositive
    exact not_le.mp hpositive

/-! ## §2. Markers in a stretch of time. -/

namespace ZoomWindow

/-- Markers that lie between `s` and `e` and keep their gap. -/
inductive Fits (gap s e : ℚ) : ZoomWindow Exact → Prop where
  | unset : Fits gap s e ⟨.none, .none⟩
  | zoomIn {a : ℚ} : s ≤ a → a ≤ e → Fits gap s e ⟨some (rational a), .none⟩
  | both {a b : ℚ} : s ≤ a → a + gap ≤ b → b ≤ e →
      Fits gap s e ⟨some (rational a), some (rational b)⟩

variable {gap gap' s' e' : ℚ} {z : ZoomWindow Exact}

/-- A wider stretch has room for the same markers. -/
theorem Fits.mono (h : z.Fits gap s e) (hgap : gap' ≤ gap) (hs : s' ≤ s) (he : e ≤ e') :
    z.Fits gap' s' e' := by
  cases h with
  | unset => exact .unset
  | zoomIn hstart hstop => exact .zoomIn (hs.trans hstart) (hstop.trans he)
  | both hstart hroom hstop =>
      exact .both (hs.trans hstart) (by linarith) (hstop.trans he)

/-- **What the check wants of the markers**: a place in the trim and the slack around
it, a gap that may lack the slack, and a crop to zoom to. -/
theorem check_iff_fits {hasCrop : Bool} :
    z.check ⟨rational s, rational e⟩ hasCrop = .ok ()
      ↔ z.Fits (1 / 10 - 1 / 1000000000) (s - 1 / 1000000000) (e + 1 / 1000000000)
        ∧ (z.start.isSome = true → hasCrop = true) := by
  rw [check_zoom_iff]
  constructor
  · rintro (⟨hin, hout⟩ | ⟨hcrop, x, hin, hfinite, hinside, hordered⟩)
    · obtain ⟨start, stop⟩ := z
      obtain rfl : start = .none := hin
      obtain rfl : stop = .none := hout
      exact ⟨.unset, fun h => nomatch h⟩
    · refine ⟨?_, fun _ => hcrop⟩
      obtain ⟨start, stop⟩ := z
      obtain rfl : start = some x := hin
      obtain ⟨a, rfl⟩ := isFinite_iff.mp hfinite
      obtain ⟨hstart, hstop⟩ := TrimRange.contains_rational.mp hinside
      cases stop with
      | none => exact .zoomIn hstart hstop
      | some y =>
          obtain ⟨b, rfl, hroom, hend⟩ := isOrdered_iff.mp (hordered y rfl)
          exact .both hstart (by linarith) hend
  · rintro ⟨hfits, hcrop⟩
    cases hfits with
    | unset => exact .inl ⟨rfl, rfl⟩
    | zoomIn hstart hstop =>
        have hinside := TrimRange.contains_rational.mpr ⟨hstart, hstop⟩
        exact .inr ⟨hcrop rfl, _, rfl, rfl, hinside, fun y hy => nomatch hy⟩
    | @both a b hstart hroom hstop =>
        -- The zoom-in is checked against the end as well, but the zoom-out is behind it.
        have hin : a ≤ e + 1 / 1000000000 := by linarith
        have hinside := TrimRange.contains_rational.mpr ⟨hstart, hin⟩
        refine .inr ⟨hcrop rfl, _, rfl, rfl, hinside, ?_⟩
        rintro y ⟨rfl⟩
        exact isOrdered_iff.mpr ⟨b, rfl, by linarith, hstop⟩

end ZoomWindow

/-- The markers of an accepted edit lie in its trim, up to the slack. -/
theorem Specification.Accepted.zoom_fits {edit : Specification Exact} (h : edit.Accepted)
    (htrim : edit.trim = ⟨rational s, rational e⟩) :
    edit.zoom.Fits (1 / 10 - 1 / 1000000000) (s - 1 / 1000000000) (e + 1 / 1000000000) := by
  have hchecked := h.zoom
  rw [htrim, ZoomWindow.check_iff_fits] at hchecked
  exact hchecked.1

end GifEdit
