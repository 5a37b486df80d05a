/-
  GifEdit.Proofs.Render.Trims
  ───────────────────────────
  **THE TIMES OF A TRIM.**

  A segment starts with a trim, and its two times are written in thousandths of a second.
  A segment may be as short as a millionth.  So the texts are right in themselves, each
  plain and within half a thousandth of its time, and yet they may agree:

      longer than a thousandth     the start is written below the end
      shorter                      both may be written as the same time

  A time below zero keeps its sign also where it is written as zero.

  Main result: `trims_are_written`.
-/
import GifEdit.Proofs.Decimal.Fixed
import GifEdit.Proofs.Edit.Specification
import GifEdit.Proofs.Render.Labels
import Mathlib.Data.List.DropRight

namespace GifEdit

open Decimal

/-! ## §1. Trailing characters. -/

/-- What is dropped are copies of the character. -/
theorem exists_dropped (c : Char) (cs : List Char) :
    ∃ k, dropTrailing c cs ++ List.replicate k c = cs := by
  have hcopies : cs.rtakeWhile (· == c) = List.replicate (cs.rtakeWhile (· == c)).length c := by
    refine List.eq_replicate_of_mem fun d hd => ?_
    exact eq_of_beq (@List.mem_rtakeWhile_imp _ (· == c) cs d hd)
  have hwhole : cs.rdropWhile (· == c) ++ cs.rtakeWhile (· == c) = cs :=
    List.rdropWhile_append_rtakeWhile
  rw [hcopies] at hwhole
  exact ⟨_, hwhole⟩

/-- Nothing is dropped before another character. -/
theorem dropTrailing_append_cons {c d : Char} (h : d ≠ c) (cs ds : List Char) :
    dropTrailing c (cs ++ d :: ds) = cs ++ d :: dropTrailing c ds := by
  have hd : (d == c) = false := beq_false_of_ne h
  unfold dropTrailing
  rw [List.reverse_append, List.reverse_cons, List.append_assoc, List.dropWhile_append]
  -- Whether all of the tail is dropped or not, the dropping ends at the other character.
  by_cases hall : (ds.reverse.dropWhile (· == c)).isEmpty = true
  · rw [if_pos hall, List.isEmpty_iff.mp hall]
    simp [hd]
  · rw [if_neg hall]
    simp

theorem dropTrailing_self {c : Char} {cs : List Char} (h : c ∉ cs) : dropTrailing c cs = cs := by
  rcases cs.eq_nil_or_concat' with rfl | ⟨front, d, rfl⟩
  · rfl
  · have hd : d ≠ c := by
      rintro rfl
      exact h (List.mem_append_right _ (List.mem_singleton_self d))
    exact dropTrailing_append_cons hd front []

theorem dropTrailing_append_self (c : Char) (cs : List Char) :
    dropTrailing c (cs ++ [c]) = dropTrailing c cs :=
  List.rdropWhile_concat_pos _ _ _ BEq.rfl

/-! ## §2. The text of a time. -/

section Times

variable {α : Type} [Scalar α] {t : α} {r : ℚ}

/-- The sign of a number that is written with a minus. -/
def signChars (t : α) : List Char := if Scalar.isNegative t then ['-'] else []

theorem ne_of_isDigit {c d : Char} (hc : c.isDigit = true) (hd : d.isDigit = false) : c ≠ d := by
  rintro rfl
  rw [hd] at hc
  exact nomatch hc

theorem isDigit_false_notMem {cs : List Char} {d : Char} (h : ∀ c ∈ cs, c.isDigit = true)
    (hd : d.isDigit = false) : d ∉ cs := fun hmem => ne_of_isDigit (h d hmem) hd rfl

/-- The point goes with the zeros behind it, and no zero in front of it does. -/
theorem dropTrailing_places {front tail : List Char} (hfront : '.' ∉ front) (htail : '.' ∉ tail) :
    dropTrailing '.' (dropTrailing '0' (front ++ '.' :: tail))
      = plainChars front (dropTrailing '0' tail) := by
  have hpoint : ('.' : Char) ≠ '0' := by decide
  obtain ⟨k, hk⟩ := exists_dropped '0' tail
  have hkept : '.' ∉ dropTrailing '0' tail := by
    intro hmem
    rw [← hk] at htail
    exact htail (List.mem_append_left _ hmem)
  rw [dropTrailing_append_cons hpoint]
  generalize dropTrailing '0' tail = kept at hkept ⊢
  unfold plainChars
  rcases kept.eq_nil_or_concat' with rfl | ⟨init, c, rfl⟩
  · -- No place is left, and the point is the last character.
    rw [List.isEmpty_nil, if_pos rfl, dropTrailing_append_self]
    exact dropTrailing_self hfront
  · have hc : c ≠ '.' := by
      rintro rfl
      exact hkept (List.mem_append_right _ (List.mem_singleton_self _))
    rw [if_neg (by simp), ← List.cons_append, ← List.append_assoc]
    exact dropTrailing_append_cons hc _ []

theorem plainChars_append (sign whole tail : List Char) :
    plainChars (sign ++ whole) tail = sign ++ plainChars whole tail := by
  unfold plainChars
  split
  · rfl
  · exact List.append_assoc _ _ _

/-- **Seconds are written plainly**, behind their sign. -/
theorem secondsChars_eq (h : Scalar.value? t = some r) : ∃ whole tail k,
    secondsChars t = signChars t ++ plainChars whole tail ∧ whole ≠ []
      ∧ (∀ c ∈ whole ++ tail, c.isDigit = true) ∧ tail.length + k = 3
      ∧ digitsValue 0 (whole ++ tail) * 10 ^ k = unitsOf 3 r := by
  obtain ⟨whole, places, hlay, hwhole, hlength, hdigits, hunits⟩ :=
    layFixed_eq (by decide : 0 < 3) (unitsOf 3 r)
  obtain ⟨k, hk⟩ := exists_dropped '0' places
  have hkept : ∀ c ∈ whole ++ dropTrailing '0' places, c.isDigit = true := by
    intro c hc
    refine hdigits c ?_
    rw [← hk, ← List.append_assoc]
    exact List.mem_append_left _ hc
  have hpoint : ('.' : Char).isDigit = false := by decide
  have hfront : '.' ∉ signChars t ++ whole := by
    rw [List.mem_append, not_or]
    refine ⟨?_, isDigit_false_notMem (fun c hc => hdigits c (List.mem_append_left _ hc)) hpoint⟩
    unfold signChars
    cases Scalar.isNegative t <;> decide
  have htail : '.' ∉ places :=
    isDigit_false_notMem (fun c hc => hdigits c (List.mem_append_right _ hc)) hpoint
  refine ⟨whole, dropTrailing '0' places, k, ?_, hwhole, hkept, ?_, ?_⟩
  · have hshown : dropTrailing '.' (dropTrailing '0' (fixedChars 3 t))
        = signChars t ++ plainChars whole (dropTrailing '0' places) := by
      rw [fixedChars_eq h, hlay]
      show dropTrailing '.' (dropTrailing '0' (signChars t ++ _)) = _
      rw [← List.append_assoc, dropTrailing_places hfront htail, plainChars_append]
    -- With a digit in it, the text is neither empty nor a mere sign.
    obtain ⟨c, more, hplain, hc⟩ := (isPlain_plainChars hwhole hkept).exists_cons
    have hminus : c ≠ '-' := ne_of_isDigit hc (by decide)
    unfold secondsChars
    rw [hshown, hplain]
    unfold signChars
    cases Scalar.isNegative t <;> simp [hminus]
  · rw [← hlength]
    conv_rhs => rw [← hk]
    simp
  · rw [← hunits]
    conv_rhs => rw [← hk]
    rw [← List.append_assoc, digitsValue_append_zeros]

theorem takeSign_signChars (t : α) {body : List Char} (h : IsPlain body) :
    takeSign (signChars t ++ body) = (Scalar.isNegative t, body) := by
  obtain ⟨c, more, rfl, hc⟩ := h.exists_cons
  unfold signChars
  cases Scalar.isNegative t with
  | true => rfl
  | false =>
      have hplus : c ≠ '+' := ne_of_isDigit hc (by decide)
      have hminus : c ≠ '-' := ne_of_isDigit hc (by decide)
      show takeSign (c :: more) = (false, c :: more)
      unfold takeSign
      split
      · rename_i heq
        exact absurd (List.cons.inj heq).1 hplus
      · rename_i heq
        exact absurd (List.cons.inj heq).1 hminus
      · rfl

/-- The text of a time: plain behind its sign, and read as the time in thousandths. -/
structure TimeText (t : α) (r : ℚ) : Prop where
  plain : ∃ body, secondsText t = String.ofList (signChars t ++ body) ∧ IsPlain body
  reads : ∃ d, readFigure (secondsText t) = some (.finite d) ∧ d.toRat = rounded 3 r
  close : |rounded 3 r - r| ≤ 1 / 2000

/-- **Every time with a value has such a text.** -/
theorem TimeText.of_value [ValuedScalar α] (h : Scalar.value? t = some r) : TimeText t r := by
  obtain ⟨whole, tail, k, hchars, hwhole, hdigits, hlength, hunits⟩ := secondsChars_eq h
  have hplain := isPlain_plainChars hwhole hdigits
  have htext : secondsText t = String.ofList (signChars t ++ plainChars whole tail) :=
    congrArg String.ofList hchars
  refine ⟨⟨_, htext, hplain⟩, ⟨⟨Scalar.isNegative t, digitsValue 0 (whole ++ tail),
    -(tail.length : Int)⟩, ?_, ?_⟩, ?_⟩
  · rw [htext]
    unfold readFigure
    rw [String.toList_ofList, takeSign_signChars t hplain]
    exact readSize_plainChars _ hwhole hdigits
  · -- Dropping the last zeros divides the digits and their power by the same.
    have hsize : (digitsValue 0 (whole ++ tail) : ℚ) / 10 ^ tail.length = unitsOf 3 r / 10 ^ 3 := by
      rw [← hunits, ← hlength, pow_add]
      push_cast
      exact (mul_div_mul_right _ _ (pow_ne_zero k (by norm_num))).symm
    rw [toRat_places, hsize]
    unfold rounded
    dsimp only
    cases hsign : Scalar.isNegative t with
    | true =>
        rcases (ValuedScalar.nonpos h hsign).lt_or_eq with hless | rfl
        · rw [if_pos rfl, if_pos hless]
        · -- A zero with a sign is read as zero.
          have hzero : unitsOf 3 0 = 0 := by decide
          simp [hzero]
    | false =>
        rw [if_neg Bool.false_ne_true, if_neg (not_lt.mpr (ValuedScalar.nonneg h hsign))]
  · have herror := rounded_error 3 r
    norm_num at herror ⊢
    exact herror

end Times

/-! ## §3. The trims of a plan. -/

namespace Specification

variable {α : Type} [Scalar α] {s : Specification α}

/-- The bounds of the stretches of an accepted edit are finite. -/
theorem Accepted.finite_bounds (h : s.Accepted) : ∀ segment ∈ s.stretches.2,
    Scalar.isFinite segment.start = true ∧ Scalar.isFinite segment.stop = true := by
  have htrim := h.trim
  unfold TrimRange.isValid at htrim
  simp only [Bool.and_eq_true] at htrim
  obtain ⟨⟨⟨⟨hstart, hstop⟩, -⟩, -⟩, -⟩ := htrim
  have hmarkers : (∀ z ∈ s.zoom.start, Scalar.isFinite z = true)
      ∧ ∀ w ∈ s.zoom.stop, Scalar.isFinite w = true := by
    rcases ZoomWindow.check_zoom_iff.mp h.zoom with ⟨hin, hout⟩ | ⟨-, a, hin, ha, -, hordered⟩
    · rw [hin, hout]
      exact ⟨nofun, nofun⟩
    · rw [hin]
      refine ⟨fun z hz => ?_, fun w hw => ?_⟩
      · rw [← Option.some.inj hz]
        exact ha
      · have hw' := hordered w hw
        unfold ZoomWindow.isOrdered at hw'
        simp only [Bool.and_eq_true] at hw'
        exact hw'.1.1
  obtain ⟨hin, hout⟩ := hmarkers
  -- Every bound of a stretch is an end of the trim or a marker.
  unfold stretches
  split
  · rename_i z _ hz _
    split
    · simp [hstart, hstop, hin z hz]
    · simp [hstart, hstop]
  · rename_i z w _ hz hw
    split
    · simp [hstart, hstop, hin z hz, hout w hw]
    · simp [hstart, hstop]
  · simp [hstart, hstop]

/-- Behind the segments nothing is trimmed. -/
theorem lastStages_not_trim (s : Specification α) (n : Nat) :
    ∀ stage ∈ s.lastStages n, ∀ a b, stage.operation ≠ .trim a b := by
  unfold lastStages join frameStages backdrop paletteStages
  cases s.background.enabled with
  | false => by_cases hn : 1 < n <;> simp [hn]
  | true => by_cases hn : 1 < n <;> simp [hn]

/-- A trim cuts out a segment. -/
theorem exists_segment_of_trim {stage : Stage α} (hstage : stage ∈ s.pipeline.stages) {a b : α}
    (htrim : stage.operation = .trim a b) : ∃ segment ∈ s.segments,
      a = segment.start ∧ b = segment.stop := by
  have hstages : stage ∈ s.stages s.segments := hstage
  rw [stages_eq, List.mem_append, List.mem_append] at hstages
  -- Only the stages of a segment have a trim among them, and it is their first one.
  rcases hstages with (hfan | hcut) | hlast
  · exfalso
    unfold fanOut at hfan
    split at hfan
    · rw [List.mem_singleton.mp hfan] at htrim
      exact nomatch htrim
    · exact nomatch hfan
  · obtain ⟨⟨segment, i⟩, hsegment, hmem⟩ := List.mem_flatMap.mp hcut
    refine ⟨segment, List.fst_mem_of_mem_zipIdx hsegment, ?_⟩
    unfold segmentStages at hmem
    dsimp only at hmem
    split at hmem
    all_goals
      simp only [List.cons_append, List.nil_append, List.mem_cons, List.not_mem_nil,
        or_false] at hmem
    · rcases hmem with rfl | rfl | rfl | rfl | rfl
      · obtain ⟨hstart, hstop⟩ := Operation.trim.inj htrim
        exact ⟨hstart.symm, hstop.symm⟩
      all_goals exact nomatch htrim
    · rcases hmem with rfl | rfl | rfl | rfl
      · obtain ⟨hstart, hstop⟩ := Operation.trim.inj htrim
        exact ⟨hstart.symm, hstop.symm⟩
      all_goals exact nomatch htrim
  · exfalso
    exact s.lastStages_not_trim _ stage hlast a b htrim

/-- **THE TRIMS OF AN ACCEPTED EDIT ARE WRITTEN PLAINLY**, whatever numbers its times are: each
text is made of digits and at most a point behind the sign of the time, and is read as the
time in thousandths of a second, a half going to the even one.  Every trim is longer than
a millionth; if it is longer than a thousandth, its start is read below its end. -/
theorem trims_are_written [ValuedScalar α] (source : Clip α) (trim : TrimRange α)
    (crop : Option Region) (zoom : ZoomWindow α) (exportSettings : ExportSettings)
    (background : Background α) (s : Specification α)
    (hs : ofParts source trim crop zoom exportSettings background = .ok s) :
    ∀ stage ∈ s.pipeline.stages, ∀ a b, stage.operation = .trim a b →
      ∃ p q : ℚ, Scalar.value? a = some p ∧ Scalar.value? b = some q ∧ minSegment < b - a
        ∧ stage.operation.filterText = "trim=start=" ++ secondsText a ++ ":end=" ++ secondsText b
        ∧ TimeText a p ∧ TimeText b q
        ∧ (p + 1 / 1000 < q → rounded 3 p < rounded 3 q) := by
  intro stage hstage a b htrim
  obtain ⟨segment, hsegment, rfl, rfl⟩ := exists_segment_of_trim hstage htrim
  -- Trims stand in the stages of segments, and segments are the kept stretches of the cut.
  obtain ⟨hstretch, hlong⟩ := List.mem_filter.mp hsegment
  obtain ⟨hstart, hstop⟩ := (accepted_of_ofParts hs).finite_bounds segment hstretch
  obtain ⟨p, hp⟩ := ValuedScalar.exists_value hstart
  obtain ⟨q, hq⟩ := ValuedScalar.exists_value hstop
  refine ⟨p, q, hp, hq, of_decide_eq_true hlong, ?_, .of_value hp, .of_value hq, fun hless => ?_⟩
  · rw [htrim]
    rfl
  · refine rounded_lt_rounded ?_
    norm_num at hless ⊢
    exact hless

/-- Half a thousandth of a second goes to the even neighbour, at the start and at the end. -/
theorem trims_are_written_halves :
    let source : Clip Exact := ⟨"clip.mp4", 10, 640, 360⟩
    let s : Specification Exact := ⟨source, ⟨0.0005, 1.2345⟩, none, .none, .standard, .standard⟩
    ofParts source ⟨0.0005, 1.2345⟩ none .none .standard .standard = .ok s
      ∧ ∃ stage ∈ s.pipeline.stages, stage.operation = .trim 0.0005 1.2345
        ∧ stage.operation.filterText = "trim=start=0:end=1.234"
        ∧ (TimeText (0.0005 : Exact) (1 / 2000) ∧ TimeText (1.2345 : Exact) (2469 / 2000))
        ∧ rounded 3 (1 / 2000) < rounded 3 (2469 / 2000) := by
  intro source s
  have hs : ofParts source ⟨0.0005, 1.2345⟩ none .none .standard .standard = .ok s := by
    decide +kernel
  have hstage : ∃ stage ∈ s.pipeline.stages, stage.operation = .trim 0.0005 1.2345 := by
    decide +kernel
  obtain ⟨stage, hmem, htrim⟩ := hstage
  obtain ⟨p, q, hp, hq, -, hwritten, hstart, hstop, hless⟩ :=
    trims_are_written _ _ _ _ _ _ s hs stage hmem _ _ htrim
  have hp' : p = 1 / 2000 := by
    rw [← Option.some.inj hp]
    norm_num
  have hq' : q = 2469 / 2000 := by
    rw [← Option.some.inj hq]
    norm_num
  subst hp' hq'
  refine ⟨hs, stage, hmem, htrim, ?_, ⟨hstart, hstop⟩, hless (by norm_num)⟩
  rw [hwritten]
  decide +kernel

/-- **A trim may be written without length, or with a sign**: four tenths of a thousandth are
written as nothing, and a zoom-in just before the clip, inside the slack, as a negative zero. -/
theorem trims_may_be_empty_or_signed :
    let source : Clip Exact := ⟨"clip.mp4", 10, 1920, 1080⟩
    let short : Specification Exact := ⟨source, ⟨0, 0.0004⟩, none, .none, .standard, .standard⟩
    let crop : Option Region := some ⟨480, 270, 960, 540⟩
    let early : Specification Exact :=
      ⟨source, ⟨0, 10⟩, crop, ⟨some (-5e-10), none⟩, .standard, .standard⟩
    let firstFilter (s : Specification Exact) : Option String :=
      s.pipeline.stages.head?.map fun stage => stage.operation.filterText
    ofParts source ⟨0, 0.0004⟩ none .none .standard .standard = .ok short
      ∧ firstFilter short = some "trim=start=0:end=0"
      ∧ ofParts source ⟨0, 10⟩ crop ⟨some (-5e-10), none⟩ .standard .standard = .ok early
      ∧ firstFilter early = some "trim=start=-0:end=10" := by
  decide +kernel

end Specification
end GifEdit
