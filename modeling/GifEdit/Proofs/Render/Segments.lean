/-
  GifEdit.Proofs.Render.Segments
  ──────────────────────────────
  **THE SEGMENTS OF AN EDIT ARE ITS TIMELINE.**

  Segments are cut at the markers and those that are too short are dropped.  Markers
  may stand up to the slack outside the trim, so a stretch can even run backwards;
  still nothing is lost but at the two ends:

      full │ cropped │ full          the middle is as long as the zoom gap
      └ may be dropped ┘             what goes at an end is at most a millionth

  `Tiles x y segments` says that segments fill the time from `x` to `y`, each of them
  long enough.  Dropping a stretch in front or behind moves one end of a tiling
  (`kept_cons`, `kept_concat`), and that is all that the filter can do.

  Main result: `segments_are_faithful`.
-/
import GifEdit.Proofs.Edit.Times
import GifEdit.Render.Planner

namespace GifEdit

open Exact

/-! ## §1. Tilings. -/

/-- The segments follow each other from `x` to `z`, and each is long enough to be kept. -/
inductive Tiles : ℚ → ℚ → List (Segment Exact) → Prop where
  | nil (x : ℚ) : Tiles x x []
  | cons {kind : SegmentKind} {x y z : ℚ} {segments : List (Segment Exact)} :
      1 / 1000000 < y - x → Tiles y z segments →
      Tiles x z (⟨kind, rational x, rational y⟩ :: segments)

@[simp] theorem minSegment_eq : (minSegment : Exact) = rational (1 / 1000000) := by
  unfold minSegment
  norm_num

/-- Which segments are long enough to be kept. -/
theorem minSegment_lt_duration {kind : SegmentKind} {x y : ℚ} :
    minSegment < Segment.duration ⟨kind, rational x, rational y⟩ ↔ 1 / 1000000 < y - x := by
  unfold Segment.duration
  rw [minSegment_eq, rational_sub, rational_lt]

theorem covers_rational {kind : SegmentKind} {x y t : ℚ} :
    Segment.covers ⟨kind, rational x, rational y⟩ (rational t) = true ↔ x ≤ t ∧ t < y := by
  unfold Segment.covers
  rw [Bool.and_eq_true, decide_eq_true_eq, decide_eq_true_eq, rational_le, rational_lt]

namespace Tiles

variable {x y z t : ℚ} {segments : List (Segment Exact)}

theorem long (h : Tiles x z segments) : ∀ segment ∈ segments, minSegment < segment.duration := by
  induction h with
  | nil => exact fun _ hmem => nomatch hmem
  | cons hlong _ ih =>
      intro segment hmem
      rcases List.mem_cons.mp hmem with rfl | hmem
      · exact minSegment_lt_duration.mpr hlong
      · exact ih segment hmem

/-- A tiling begins where its first segment does. -/
theorem start_eq {segment : Segment Exact} (h : Tiles x z segments)
    (hfirst : segments.head? = some segment) : segment.start = rational x := by
  cases h with
  | nil => exact nomatch hfirst
  | cons _ _ =>
      obtain rfl := Option.some.inj hfirst
      rfl

/-- Each segment begins where the one before it ends. -/
theorem abut (h : Tiles x z segments) :
    segments.IsChain fun segment next => segment.stop = next.start := by
  induction h with
  | nil => exact .nil
  | cons _ htail ih =>
      cases htail with
      | nil => exact .singleton _
      | cons _ _ => exact .cons_cons rfl ih

theorem stop_eq {segment : Segment Exact} (h : Tiles x z segments)
    (hlast : segments.getLast? = some segment) : segment.stop = rational z := by
  induction h with
  | nil => exact nomatch hlast
  | @cons kind x y z segments _ htail ih =>
      cases htail with
      | nil =>
          obtain rfl := Option.some.inj hlast
          rfl
      | cons hlong hrest =>
          rw [List.getLast?_cons_cons] at hlast
          exact ih hlast

/-- Nothing is shown before the first segment. -/
theorem filter_covers_before (h : Tiles x z segments) (ht : t < x) :
    segments.filter (fun segment => segment.covers (rational t)) = [] := by
  induction h with
  | nil => rfl
  | cons hlong _ ih =>
      rw [List.filter_cons_of_neg, ih (by linarith)]
      rw [covers_rational, not_and_or]
      exact .inl (not_le.mpr ht)

/-- **Every time between the ends is shown once.** -/
theorem filter_covers (h : Tiles x z segments) (hx : x ≤ t) (hz : t < z) :
    ∃ segment, segments.filter (fun segment => segment.covers (rational t)) = [segment] := by
  induction h with
  | nil => exact absurd hz (not_lt.mpr hx)
  | @cons kind x y z segments hlong htail ih =>
      by_cases hy : t < y
      · refine ⟨⟨kind, rational x, rational y⟩, ?_⟩
        rw [List.filter_cons_of_pos, htail.filter_covers_before hy]
        exact covers_rational.mpr ⟨hx, hy⟩
      · obtain ⟨segment, hsegment⟩ := ih (not_lt.mp hy) hz
        refine ⟨segment, ?_⟩
        rw [List.filter_cons_of_neg, hsegment]
        rw [covers_rational, not_and_or]
        exact .inr hy

/-- The lengths add up to the distance of the ends. -/
theorem total (h : Tiles x z segments) :
    Scalar.total (segments.map Segment.duration) = rational (z - x) := by
  -- The sum is a fold from the left, so the induction is on any start of it.
  have hfold : ∀ c : ℚ, (segments.map Segment.duration).foldl (· + ·) (rational c)
      = rational (c + (z - x)) := by
    induction h with
    | nil => simp
    | @cons kind x y z segments _ _ ih =>
        intro c
        have hsum : c + (y - x) + (z - y) = c + (z - x) := by linarith
        rw [List.map_cons, List.foldl_cons, Segment.duration, rational_sub, rational_add, ih, hsum]
  unfold Scalar.total
  rw [literal_eq, rational_neg, hfold]
  simp

end Tiles

/-! ## §2. Dropping short stretches. -/

/-- The stretches that are long enough. -/
def keptSegments (stretches : List (Segment Exact)) : List (Segment Exact) :=
  stretches.filter fun segment => minSegment < segment.duration

section Kept

variable {x y z : ℚ} {stretches : List (Segment Exact)}

/-- A stretch that is long enough is kept. -/
theorem keptSegments_long {kind : SegmentKind} (h : 1 / 1000000 < y - x) :
    keptSegments (⟨kind, rational x, rational y⟩ :: stretches)
      = ⟨kind, rational x, rational y⟩ :: keptSegments stretches := by
  unfold keptSegments
  rw [List.filter_cons_of_pos]
  rw [decide_eq_true_eq]
  exact minSegment_lt_duration.mpr h

/-- A stretch that is too short is dropped. -/
theorem keptSegments_short {kind : SegmentKind} (h : ¬ 1 / 1000000 < y - x) :
    keptSegments (⟨kind, rational x, rational y⟩ :: stretches) = keptSegments stretches := by
  unfold keptSegments
  rw [List.filter_cons_of_neg]
  rw [decide_eq_true_eq]
  exact mt minSegment_lt_duration.mp h

theorem keptSegments_append (first second : List (Segment Exact)) :
    keptSegments (first ++ second) = keptSegments first ++ keptSegments second :=
  List.filter_append first second

theorem kept_nil (x : ℚ) : Tiles x x (keptSegments []) := .nil x

/-- A stretch in front of a tiling moves its beginning, up to a millionth. -/
theorem kept_cons (kind : SegmentKind) (h : Tiles y z (keptSegments stretches))
    (hback : -(1 / 1000000) ≤ y - x) :
    ∃ x', |x' - x| ≤ 1 / 1000000
      ∧ Tiles x' z (keptSegments (⟨kind, rational x, rational y⟩ :: stretches)) := by
  by_cases hlong : 1 / 1000000 < y - x
  · refine ⟨x, by norm_num, ?_⟩
    rw [keptSegments_long hlong]
    exact .cons hlong h
  · -- What is dropped may run backwards, but no further than it may be long.
    refine ⟨y, abs_le.mpr ⟨hback, not_lt.mp hlong⟩, ?_⟩
    rw [keptSegments_short hlong]
    exact h

/-- A tiling goes on with a segment at its end. -/
theorem tiles_concat (kind : SegmentKind) (h : Tiles x y stretches) (hlong : 1 / 1000000 < z - y) :
    Tiles x z (stretches ++ [⟨kind, rational y, rational z⟩]) := by
  induction h with
  | nil => exact .cons hlong (.nil z)
  | cons hfirst _ ih => exact .cons hfirst (ih hlong)

/-- A stretch behind a tiling moves its end, up to a millionth. -/
theorem kept_concat (kind : SegmentKind) (h : Tiles x y (keptSegments stretches))
    (hback : -(1 / 1000000) ≤ z - y) :
    ∃ z', |z' - z| ≤ 1 / 1000000
      ∧ Tiles x z' (keptSegments (stretches ++ [⟨kind, rational y, rational z⟩])) := by
  rw [keptSegments_append]
  by_cases hlong : 1 / 1000000 < z - y
  · refine ⟨z, by norm_num, ?_⟩
    rw [keptSegments_long hlong]
    exact tiles_concat kind h hlong
  · refine ⟨y, ?_, ?_⟩
    · rw [abs_sub_comm]
      exact abs_le.mpr ⟨hback, not_lt.mp hlong⟩
    · rw [keptSegments_short hlong]
      show Tiles x y (keptSegments stretches ++ [])
      rw [List.append_nil]
      exact h

end Kept

/-! ## §3. The cut of an accepted edit. -/

namespace Specification

variable {s : Specification Exact} {a b : ℚ}

/-- What the crop, the zoom-in and the zoom-out say of a time. -/
theorem isCroppedAt_iff {t : Exact} :
    s.isCroppedAt t = true ↔ s.crop.isSome = true ∧ ∃ z, s.zoom.start = some z
      ∧ (z == 0) = false ∧ z ≤ t ∧ ∀ w ∈ s.zoom.stop, t < w := by
  unfold isCroppedAt
  cases s.crop with
  | none => simp
  | some r =>
      cases s.zoom.start with
      | none => simp
      | some z => simp [and_assoc, Option.all_eq_true]

/-- How the stretches of an edit lie, and which times show the crop. -/
inductive Cut (s : Specification Exact) (a b : ℚ) : List (Segment Exact) → Prop where
  | simple : (∀ t, s.isCroppedAt t = false) → Cut s a b [⟨.full, rational a, rational b⟩]
  | twoPart {z : ℚ} : a - 1 / 1000000000 ≤ z → z ≤ b + 1 / 1000000000 →
      (∀ t : ℚ, s.isCroppedAt (rational t) = true ↔ z ≤ t) →
      Cut s a b [⟨.full, rational a, rational z⟩, ⟨.cropped, rational z, rational b⟩]
  | threePart {z w : ℚ} : a - 1 / 1000000000 ≤ z → z + (1 / 10 - 1 / 1000000000) ≤ w →
      w ≤ b + 1 / 1000000000 →
      (∀ t : ℚ, s.isCroppedAt (rational t) = true ↔ z ≤ t ∧ t < w) →
      Cut s a b [⟨.full, rational a, rational z⟩, ⟨.cropped, rational z, rational w⟩,
        ⟨.full, rational w, rational b⟩]

/-- **The cut follows the markers.** -/
theorem cut_stretches (htrim : s.trim = ⟨rational a, rational b⟩) (h : s.Accepted) :
    s.Cut a b s.stretches.2 := by
  have hfits := h.zoom_fits htrim
  unfold stretches
  rw [htrim]
  cases hcrop : s.crop with
  | none =>
      refine .simple fun t => ?_
      simp [isCroppedAt, hcrop]
  | some r =>
      generalize hz : s.zoom = zoom at hfits
      cases hfits with
      | unset =>
          refine .simple fun t => ?_
          simp [isCroppedAt, hcrop, hz]
      | @zoomIn z hstart hstop =>
          -- A zoom-in at the very beginning leaves nothing uncropped before it.
          by_cases hzero : z = 0
          · simp only [rational_beq, literal_eq, hzero, Nat.cast_zero]
            refine .simple fun t => ?_
            simp [isCroppedAt, hcrop, hz, hzero]
          · simp only [rational_beq, literal_eq, hzero, Nat.cast_zero]
            refine .twoPart hstart hstop fun t => ?_
            simp [isCroppedAt_iff, hcrop, hz, hzero]
      | @both z w hstart hroom hstop =>
          by_cases hzero : z = 0
          · simp only [rational_beq, literal_eq, hzero, Nat.cast_zero]
            refine .simple fun t => ?_
            simp [isCroppedAt, hcrop, hz, hzero]
          · simp only [rational_beq, literal_eq, hzero, Nat.cast_zero]
            refine .threePart hstart hroom hstop fun t => ?_
            simp [isCroppedAt_iff, hcrop, hz, hzero]

/-- **The kept stretches tile the trim**, up to a millionth at either end. -/
theorem tiles_of_cut {stretches : List (Segment Exact)} (hab : a < b)
    (h : s.Cut a b stretches) :
    ∃ x y, |x - a| ≤ 1 / 1000000 ∧ |y - b| ≤ 1 / 1000000 ∧ Tiles x y (keptSegments stretches) := by
  cases h with
  | simple _ =>
      have hlong : -(1 / 1000000) ≤ b - a := by linarith
      obtain ⟨y, hy, htiles⟩ := kept_concat .full (kept_nil a) hlong
      exact ⟨a, y, by norm_num, hy, htiles⟩
  | @twoPart z hstart hstop _ =>
      have hfront : -(1 / 1000000) ≤ z - a := by linarith
      have hback : -(1 / 1000000) ≤ b - z := by linarith
      obtain ⟨y, hy, htail⟩ := kept_concat .cropped (kept_nil z) hback
      obtain ⟨x, hx, htiles⟩ := kept_cons .full htail hfront
      exact ⟨x, y, hx, hy, htiles⟩
  | @threePart z w hstart hroom hstop _ =>
      -- The gap between the markers keeps the middle, so there is no hole to close.
      have hfront : -(1 / 1000000) ≤ z - a := by linarith
      have hlong : 1 / 1000000 < w - z := by linarith
      have hback : -(1 / 1000000) ≤ b - w := by linarith
      have hmiddle : Tiles z w (keptSegments [⟨.cropped, rational z, rational w⟩]) := by
        rw [keptSegments_long hlong]
        exact .cons hlong (.nil w)
      obtain ⟨y, hy, htail⟩ := kept_concat .full hmiddle hback
      obtain ⟨x, hx, htiles⟩ := kept_cons .full htail hfront
      exact ⟨x, y, hx, hy, htiles⟩

/-- A stretch shows the crop exactly when its times do. -/
theorem kind_of_cut {stretches : List (Segment Exact)} (h : s.Cut a b stretches)
    {segment : Segment Exact} (hmem : segment ∈ stretches) {t : ℚ}
    (ht : segment.covers (rational t) = true) :
    segment.kind = .cropped ↔ s.isCroppedAt (rational t) = true := by
  cases h with
  | simple hnever =>
      obtain rfl := List.mem_singleton.mp hmem
      simp [hnever]
  | twoPart _ _ hshown =>
      rw [hshown]
      simp only [List.mem_cons, List.not_mem_nil, or_false] at hmem
      rcases hmem with rfl | rfl
      · simp [(covers_rational.mp ht).2]
      · simp [(covers_rational.mp ht).1]
  | threePart _ _ _ hshown =>
      rw [hshown]
      simp only [List.mem_cons, List.not_mem_nil, or_false] at hmem
      rcases hmem with rfl | rfl | rfl
      · simp [(covers_rational.mp ht).2]
      · simp [covers_rational.mp ht]
      · simp [(covers_rational.mp ht).1]

/-! ## §4. The timeline of a pipeline. -/

/-- Segments from `first` to `last` that show the kept time of an edit as its markers ask,
without gaps and without overlaps. -/
structure Faithful (s : Specification Exact) (segments : List (Segment Exact))
    (first last : Segment Exact) : Prop where
  head_eq : segments.head? = some first
  last_eq : segments.getLast? = some last
  long : ∀ segment ∈ segments, minSegment < segment.duration
  abut : segments.IsChain fun segment next => segment.stop = next.start
  start : Scalar.abs (first.start - s.trim.start) ≤ 1e-6
  stop : Scalar.abs (last.stop - s.trim.stop) ≤ 1e-6
  shown : ∀ t, first.start ≤ t → t < last.stop →
    ∃ segment, segments.filter (fun segment => segment.covers t) = [segment]
      ∧ (segment.kind = .cropped ↔ s.isCroppedAt t = true)

/-- **THE SEGMENTS ARE A FAITHFUL TIMELINE** of an accepted edit that keeps anything, and
they are as long as its trim, up to two millionths. -/
theorem segments_are_faithful (source : Clip Exact) (trim : TrimRange Exact)
    (crop : Option Region) (zoom : ZoomWindow Exact) (exportSettings : ExportSettings)
    (background : Background Exact) (s : Specification Exact)
    (hs : ofParts source trim crop zoom exportSettings background = .ok s)
    (hkept : s.pipeline.segments ≠ []) :
    ∃ first last, s.Faithful s.pipeline.segments first last
      ∧ Scalar.abs (s.pipeline.duration - s.trim.duration) ≤ 2e-6 := by
  have haccepted := accepted_of_ofParts hs
  obtain ⟨a, b, hstart, hstop, -, hab⟩ := TrimRange.exists_of_isValid haccepted.trim
  have hcut : s.Cut a b s.stretches.2 := by
    refine cut_stretches ?_ haccepted
    rw [← hstart, ← hstop]
  obtain ⟨x, y, hx, hy, htiles⟩ := tiles_of_cut hab hcut
  have hsegments : s.pipeline.segments = keptSegments s.stretches.2 := rfl
  rw [← hsegments] at htiles
  -- There is a segment, so there is a first and a last one.
  obtain ⟨first, hfirst⟩ := Option.ne_none_iff_exists'.mp (mt List.head?_eq_none_iff.mp hkept)
  obtain ⟨last, hlast⟩ := Option.ne_none_iff_exists'.mp (mt List.getLast?_eq_none_iff.mp hkept)
  have hbound : (1e-6 : Exact) = rational (1 / 1000000) := minSegment_eq
  refine ⟨first, last, ⟨hfirst, hlast, htiles.long, htiles.abut, ?_, ?_, ?_⟩, ?_⟩
  · rw [htiles.start_eq hfirst, hstart, hbound, rational_sub, abs_rational, rational_le]
    exact hx
  · rw [htiles.stop_eq hlast, hstop, hbound, rational_sub, abs_rational, rational_le]
    exact hy
  · intro t hlo hhi
    rw [htiles.start_eq hfirst] at hlo
    rw [htiles.stop_eq hlast] at hhi
    obtain ⟨q, rfl, hxq, hqy⟩ := exists_of_between hlo hhi
    -- A tiling has one segment for each time, and its kind is that of the cut.
    obtain ⟨segment, hsegment⟩ := htiles.filter_covers hxq hqy
    refine ⟨segment, hsegment, ?_⟩
    have hshown : segment ∈ s.pipeline.segments.filter fun segment =>
        segment.covers (rational q) := by
      rw [hsegment]
      exact List.mem_singleton_self segment
    obtain ⟨hmem, hcovers⟩ := List.mem_filter.mp hshown
    exact kind_of_cut hcut (List.mem_filter.mp hmem).1 hcovers
  · -- The lengths telescope, so only the two ends are off.
    have htotal : |y - x - (b - a)| ≤ 1 / 500000 := by
      obtain ⟨hxl, hxr⟩ := abs_le.mp hx
      obtain ⟨hyl, hyr⟩ := abs_le.mp hy
      exact abs_le.mpr ⟨by linarith, by linarith⟩
    unfold Pipeline.duration TrimRange.duration
    rw [htiles.total, hstart, hstop, rational_sub, rational_sub, abs_rational]
    norm_num
    norm_num at htotal
    exact htotal

/-- The zoom-in stands just before the trim: the stretch in front of it runs backwards and
is dropped. -/
theorem segments_are_faithful_early :
    let source : Clip Exact := ⟨"clip.mp4", 10, 640, 360⟩
    let zoom : ZoomWindow Exact := ⟨some 0.9999999995, some 3⟩
    let s : Specification Exact :=
      ⟨source, ⟨1, 5⟩, some ⟨0, 0, 320, 180⟩, zoom, .standard, .standard⟩
    ofParts source ⟨1, 5⟩ (some ⟨0, 0, 320, 180⟩) zoom .standard .standard = .ok s
      ∧ s.pipeline.segments = [⟨.cropped, 0.9999999995, 3⟩, ⟨.full, 3, 5⟩]
      ∧ ∃ first last, s.Faithful s.pipeline.segments first last
        ∧ Scalar.abs (s.pipeline.duration - s.trim.duration) ≤ 2e-6 := by
  intro source zoom s
  have hs : ofParts source ⟨1, 5⟩ (some ⟨0, 0, 320, 180⟩) zoom .standard .standard = .ok s := by
    decide +kernel
  have hsegments : s.pipeline.segments = [⟨.cropped, 0.9999999995, 3⟩, ⟨.full, 3, 5⟩] := by
    decide +kernel
  refine ⟨hs, hsegments, segments_are_faithful _ _ _ _ _ _ s hs ?_⟩
  rw [hsegments]
  exact List.cons_ne_nil _ _

end Specification
end GifEdit
