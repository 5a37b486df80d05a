/-
  GifEdit.Proofs.Config.Gaps
  ──────────────────────────
  **THE GAPS OF AN ACCEPTED CONFIGURATION.**

  A configuration is checked when it is loaded, and the timeline relies on what was
  checked: the zoom gap lies in its range and is no longer than the trim gap.  The
  check compares numbers and an undefined one passes the second comparison, so
  finite numbers are assumed beside it.
-/
import GifEdit.Editor.Timeline
import GifEdit.Proofs.Scalar.Exact
import Mathlib.Tactic.Linarith
import Mathlib.Tactic.NormNum

namespace GifEdit

open Exact

/-- The numbers that tune the gesture surfaces. -/
def Interaction.numbers {α : Type} [Scalar α] (i : Interaction α) : List α :=
  [i.handleHitRadius, i.minCropWidth, i.markerHitRadius, i.minTrimGap, i.minZoomGap]

/-- The gaps of a timeline are `zoomGap` and `trimGap`, as an accepted configuration
has them. -/
structure TimelineTuning.HasGaps (u : TimelineTuning Exact) (zoomGap trimGap : ℚ) : Prop where
  zoom_eq : u.minZoomGap = rational zoomGap
  trim_eq : u.minTrimGap = rational trimGap
  least : 1 / 10 ≤ zoomGap
  ordered : zoomGap ≤ trimGap

theorem TimelineTuning.HasGaps.zoomGap_pos {u : TimelineTuning Exact} {zoomGap trimGap : ℚ}
    (h : u.HasGaps zoomGap trimGap) : 0 < zoomGap := by
  linarith [h.least]

theorem TimelineTuning.HasGaps.trimGap_pos {u : TimelineTuning Exact} {zoomGap trimGap : ℚ}
    (h : u.HasGaps zoomGap trimGap) : 0 < trimGap := by
  linarith [h.least, h.ordered]

/-- What the check says of the two gaps. -/
theorem Config.gaps_of_check {c : Config Exact} {zoomGap trimGap : ℚ}
    (hzoom : c.interaction.minZoomGap = rational zoomGap)
    (htrim : c.interaction.minTrimGap = rational trimGap) (hcheck : c.check = .ok ()) :
    zoomGap ≤ trimGap := by
  unfold Config.check at hcheck
  simp only [hzoom, htrim] at hcheck
  split at hcheck
  · exact nomatch hcheck
  · split at hcheck
    · exact nomatch hcheck
    · rename_i hcrossed
      exact not_lt.mp (mt rational_lt.mpr hcrossed)

/-- **The zoom gap of an accepted configuration** lies in its range, so the timeline takes
it as it is. -/
theorem Config.exists_zoomGap {c : Config Exact} (hcheck : c.check = .ok ()) :
    ∃ zoomGap, c.interaction.minZoomGap = rational zoomGap
      ∧ c.interaction.timelineTuning.minZoomGap = rational zoomGap
      ∧ 1 / 10 ≤ zoomGap ∧ zoomGap ≤ 1 / 2 := by
  unfold Config.check at hcheck
  by_cases hrange : 0.1 ≤ c.interaction.minZoomGap ∧ c.interaction.minZoomGap ≤ 0.5
  · obtain ⟨gap, hgap, hlow, hhigh⟩ := exists_of_mem hrange.1 hrange.2
    norm_num at hlow hhigh
    refine ⟨gap, hgap, ?_, hlow, hhigh⟩
    show Scalar.clamp c.interaction.minZoomGap 0.1 0.5 = rational gap
    rw [hgap, fraction_eq, fraction_eq, clamp_rational (by norm_num)]
    norm_num [hlow, hhigh]
  · have hrefused : (!(decide (0.1 ≤ c.interaction.minZoomGap)
        && decide (c.interaction.minZoomGap ≤ 0.5))) = true := by
      rw [Bool.not_eq_true', ← Bool.decide_and]
      exact decide_eq_false hrange
    dsimp only at hcheck
    rw [if_pos hrefused] at hcheck
    exact nomatch hcheck

/-- **An accepted configuration spaces the markers.** -/
theorem Config.hasGaps {c : Config Exact} (hcheck : c.check = .ok ())
    (hfinite : ∀ x ∈ c.interaction.numbers, Scalar.isFinite x = true) :
    ∃ zoomGap trimGap, c.interaction.timelineTuning.HasGaps zoomGap trimGap := by
  obtain ⟨zoomGap, hzoom, htuned, hlow, -⟩ := Config.exists_zoomGap hcheck
  obtain ⟨trimGap, htrim⟩ := isFinite_iff.mp
    (hfinite c.interaction.minTrimGap (by simp [Interaction.numbers]))
  exact ⟨zoomGap, trimGap, htuned, htrim, hlow, Config.gaps_of_check hzoom htrim hcheck⟩

end GifEdit
