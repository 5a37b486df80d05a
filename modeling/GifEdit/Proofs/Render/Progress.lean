/-
  GifEdit.Proofs.Render.Progress
  ──────────────────────────────
  **HOW FAR THE ENCODER SAYS IT IS.**

  The encoder prints lines, a state is carried along them, and the state at the end of each
  block of lines is reported.  What a report shows is computed in three steps,

      share      =  time / expected, clamped to [0, 1]
      progress   =  1 at the end, the share before
      frames     =  the share of all frames, rounded

  and a clamp leaves the undefined value as it is.  So the progress is in its range, except
  where the quotient is undefined: where the time read last is, because the encoder printed
  `nan` for it, or where it is infinite and so is the expected length.  The frames are never
  more than there are, undefined share or not, as far as their number can be written as a
  scalar.

  The lemmas:

    * `reportsFrom_eq`          — the reports are those of the states at the ends of blocks,
    * `mem_blocks_iff`          — which are those after a line that closes one,
    * `report_inRange_iff`      — the progress of a report,
    * `report_framesRendered_le` — its frames,
    * `update_outTime_eq`       — what a line does to the time.

  Main results, for every text the encoder can print:

    * `encoderReports_inRange_iff`       — which reports are in range, by the states reported,
    * `encoderReports_progress_inRange`  — and that all of them are, where the expected length
      is finite and no line gives the undefined value as its time.
-/
import GifEdit.Render.Progress
import GifEdit.Render.Pipeline
import GifEdit.Proofs.Scalar.Shares

namespace GifEdit

variable {α : Type} [Scalar α]

/-! ## §1. States at the ends of blocks. -/

/-- Whether a line is the last of a block. -/
def closesBlock (line : List Char) : Bool :=
  (keyValue? line).any fun pair => pair.1 == "progress"

namespace EncoderState

/-- The state after a line. -/
def follow (s : EncoderState α) (line : List Char) : EncoderState α :=
  match keyValue? line with
  | none => s
  | some (key, value) => s.update key value

/-- The states after the lines that close a block. -/
def blocks (s : EncoderState α) : List (List Char) → List (EncoderState α)
  | [] => []
  | line :: lines =>
      if closesBlock line then s.follow line :: (s.follow line).blocks lines
      else (s.follow line).blocks lines

/-- **Each block is reported once**, in order. -/
theorem reportsFrom_eq (totalFrames : Nat) (expected : α) (elapsed : Nat → α)
    (lines : List (List Char)) : ∀ (s : EncoderState α) (n : Nat),
    reportsFrom totalFrames expected elapsed s n lines
      = (s.blocks lines).mapIdx fun k t => t.report totalFrames expected (elapsed (n + k)) := by
  induction lines with
  | nil =>
      intro s n
      rfl
  | cons line lines ih =>
      intro s n
      unfold reportsFrom blocks follow closesBlock
      cases keyValue? line with
      | none => exact ih s n
      | some pair =>
          obtain ⟨key, value⟩ := pair
          by_cases hkey : (key == "progress") = true
          · simp only [Option.any_some, hkey, if_true, List.mapIdx_cons, Nat.add_zero, ih]
            simp only [Nat.add_assoc, Nat.add_comm 1]
          · simp only [Option.any_some, hkey, ih]
            rfl

/-- They are the states after the text up to such a line. -/
theorem mem_blocks_iff {t : EncoderState α} (lines : List (List Char)) :
    ∀ s : EncoderState α, t ∈ s.blocks lines ↔ ∃ before line after,
      lines = before ++ line :: after ∧ closesBlock line = true
        ∧ t = (before ++ [line]).foldl follow s := by
  induction lines with
  | nil =>
      intro s
      simp [blocks]
  | cons line lines ih =>
      intro s
      have hblocks : t ∈ s.blocks (line :: lines) ↔
          (closesBlock line = true ∧ t = s.follow line) ∨ t ∈ (s.follow line).blocks lines := by
        rw [blocks]
        by_cases hcloses : closesBlock line = true
        · simp [hcloses]
        · simp [hcloses]
      rw [hblocks, ih]
      -- A block ends with the first line, or is one of the blocks behind it.
      constructor
      · intro h
        rcases h with ⟨hcloses, ht⟩ | ⟨before, last, after, hlines, hcloses, ht⟩
        · exact ⟨[], line, lines, rfl, hcloses, ht⟩
        · refine ⟨line :: before, last, after, ?_, hcloses, ht⟩
          rw [hlines]
          rfl
      · intro h
        obtain ⟨before, last, after, hlines, hcloses, ht⟩ := h
        cases before with
        | nil =>
            obtain ⟨rfl, -⟩ := List.cons.inj hlines
            exact .inl ⟨hcloses, ht⟩
        | cons head before =>
            obtain ⟨rfl, hrest⟩ := List.cons.inj hlines
            exact .inr ⟨before, last, after, hrest, hcloses, ht⟩

/-! ## §2. What is said of the time. -/

/-- The keys under which the encoder gives the time, in microseconds. -/
def IsTimeKey (key : String) : Prop := key = "out_time_ms" ∨ key = "out_time_us"

/-- **What a line does to the time**: under the right key any figure is taken, also one that
is no finite number, and what is no figure leaves the state as it is. -/
theorem update_time {key : String} (hkey : IsTimeKey key) (s : EncoderState α) (value : String) :
    s.update key value = match Decimal.readFigure value with
      | some f => { s with outTime := f.toScalar / 1000000 }
      | none => s := by
  rcases hkey with rfl | rfl
  · rfl
  · rfl

/-- No other key changes the time. -/
theorem update_outTime_of_not_timeKey {key : String} (hkey : ¬ IsTimeKey key)
    (s : EncoderState α) (value : String) : (s.update key value).outTime = s.outTime := by
  unfold update
  split
  · exact absurd (.inl rfl) hkey
  · exact absurd (.inr rfl) hkey
  · rfl
  · rfl

/-- A line that gives a time. -/
def Tells (line : List Char) (f : Decimal.Figure) : Prop :=
  ∃ key value, keyValue? line = some (key, value) ∧ IsTimeKey key
    ∧ Decimal.readFigure value = some f

/-- A line leaves the time as it is, or it gives one. -/
theorem follow_outTime (s : EncoderState α) (line : List Char) :
    (s.follow line).outTime = s.outTime
      ∨ ∃ f, Tells line f ∧ (s.follow line).outTime = f.toScalar / 1000000 := by
  cases hline : keyValue? line with
  | none =>
      unfold follow
      rw [hline]
      exact .inl rfl
  | some pair =>
      obtain ⟨key, value⟩ := pair
      have hfollow : s.follow line = s.update key value := by
        unfold follow
        rw [hline]
      rw [hfollow]
      by_cases hkey : IsTimeKey key
      · rw [update_time hkey]
        cases hread : Decimal.readFigure value with
        | none => exact .inl rfl
        | some f => exact .inr ⟨f, ⟨key, value, hline, hkey, hread⟩, rfl⟩
      · exact .inl (update_outTime_of_not_timeKey hkey s value)

/-- The time in a state is one that a line has given, if any has. -/
theorem foldl_follow_outTime (lines : List (List Char)) : ∀ s : EncoderState α,
    (lines.foldl follow s).outTime = s.outTime
      ∨ ∃ line ∈ lines, ∃ f, Tells line f
        ∧ (lines.foldl follow s).outTime = f.toScalar / 1000000 := by
  induction lines with
  | nil =>
      intro s
      exact .inl rfl
  | cons line lines ih =>
      intro s
      rw [List.foldl_cons]
      rcases ih (s.follow line) with hsame | ⟨told, htold, h⟩
      · rw [hsame]
        rcases follow_outTime s line with hkept | h
        · exact .inl hkept
        · exact .inr ⟨line, List.mem_cons_self, h⟩
      · exact .inr ⟨told, List.mem_cons_of_mem _ htold, h⟩

/-! ## §3. Reports. -/

/-- A time has a share of an expected length: both are defined, and one is finite. -/
def HasShare (time expected : α) : Prop :=
  Scalar.isUndefined time = false ∧ Scalar.isUndefined expected = false
    ∧ (Scalar.isFinite time = true ∨ Scalar.isFinite expected = true)

/-- A quotient is defined exactly if there is a share. -/
theorem isUndefined_div_eq_false [RoundedScalar α] {time expected : α} (h : ¬ expected ≤ 0) :
    Scalar.isUndefined (time / expected) = false ↔ HasShare time expected := by
  unfold HasShare
  rw [← Bool.not_eq_true, RoundedScalar.isUndefined_div h]
  simp only [not_or, not_and_or, Bool.not_eq_true, Bool.not_eq_false]

/-- Nothing clamps an undefined quotient. -/
theorem isUndefined_share [OrderedScalar α] (s : EncoderState α) {expected : α}
    (hexpected : ¬ expected ≤ 0) (h : Scalar.isUndefined (s.outTime / expected) = true) :
    Scalar.isUndefined (s.share expected) = true := by
  unfold share
  rw [if_neg hexpected, Scalar.clamp_undefined 0 1 h]
  exact h

variable [OrderedScalar α] [RoundedScalar α]

/-- A share that is defined is clamped. -/
theorem zero_le_share_le_one (s : EncoderState α) {expected : α}
    (h : expected ≤ 0 ∨ Scalar.isUndefined (s.outTime / expected) = false) :
    0 ≤ s.share expected ∧ s.share expected ≤ 1 := by
  have hzero : (0 : α) ≤ 0 := RoundedScalar.zero_le_ofNat 0
  have hone : (0 : α) ≤ 1 := RoundedScalar.zero_le_ofNat 1
  unfold share
  by_cases hexpected : expected ≤ 0
  · rw [if_pos hexpected]
    exact ⟨hzero, hone⟩
  · rw [if_neg hexpected]
    exact Scalar.clamp_mem hone (h.resolve_left hexpected)

/-- **The progress of a report is in its range** at the end, or where the time has a share
or none is asked for. -/
theorem report_inRange_iff (s : EncoderState α) (totalFrames : Nat) (expected elapsed : α) :
    (0 ≤ (s.report totalFrames expected elapsed).progress
        ∧ (s.report totalFrames expected elapsed).progress ≤ 1)
      ↔ s.ended = true ∨ expected ≤ 0 ∨ HasShare s.outTime expected := by
  show (0 ≤ (if s.ended then 1 else s.share expected)
    ∧ (if s.ended then 1 else s.share expected) ≤ 1) ↔ _
  cases s.ended with
  | true =>
      have hone : (0 : α) ≤ 1 := RoundedScalar.zero_le_ofNat 1
      have hself : (1 : α) ≤ 1 := Scalar.le_self (OrderedScalar.isUndefined_of_le hone).2
      exact iff_of_true ⟨hone, hself⟩ (.inl rfl)
  | false =>
      rw [if_neg Bool.false_ne_true]
      by_cases hexpected : expected ≤ 0
      · exact iff_of_true (zero_le_share_le_one s (.inl hexpected)) (.inr (.inl hexpected))
      · -- The clamp lets through just what is undefined.
        rw [← isUndefined_div_eq_false hexpected]
        constructor
        · intro hmem
          by_contra hnone
          rw [not_or, not_or, Bool.not_eq_false] at hnone
          have hundefined := isUndefined_share s hexpected hnone.2.2
          exact (Scalar.not_le_of_undefined hundefined 1).1 hmem.2
        · intro h
          exact zero_le_share_le_one s (h.resolve_left Bool.false_ne_true)

/-- **The frames of a report are no more than all of them**, as a scalar counts those. -/
theorem report_framesRendered_le (s : EncoderState α) {totalFrames : Nat}
    (htotal : totalFrames ≤ Scalar.doubleWordMax) (expected elapsed : α) :
    (s.report totalFrames expected elapsed).framesRendered
      ≤ Scalar.wholeUpTo Scalar.doubleWordMax (Scalar.ofNat totalFrames : α) := by
  show Scalar.wholeUpTo Scalar.doubleWordMax
    (Scalar.round (s.share expected * Scalar.ofNat totalFrames)) ≤ _
  by_cases h : expected ≤ 0 ∨ Scalar.isUndefined (s.outTime / expected) = false
  · obtain ⟨hlow, hhigh⟩ := zero_le_share_le_one s h
    have hshare : s.share expected * Scalar.ofNat totalFrames ≤ Scalar.ofNat totalFrames :=
      RoundedScalar.mul_le hlow hhigh (RoundedScalar.zero_le_ofNat totalFrames)
        (RoundedScalar.isFinite_ofNat htotal)
    exact RoundedScalar.wholeUpTo_mono _ (RoundedScalar.round_le hshare)
  · -- An undefined share is counted as no frame at all.
    rw [not_or, Bool.not_eq_false] at h
    have hundefined : Scalar.isUndefined (s.share expected * Scalar.ofNat totalFrames) = true :=
      RoundedScalar.isUndefined_mul (isUndefined_share s h.1 h.2)
    rw [RoundedScalar.wholeUpTo_undefined _ (RoundedScalar.isUndefined_round hundefined)]
    exact Nat.zero_le _

/-! ## §4. All reports on a text. -/

omit [OrderedScalar α] in
theorem not_million_le_zero : ¬ (1000000 : α) ≤ 0 := by
  intro hle
  have hmono := RoundedScalar.wholeUpTo_mono Scalar.doubleWordMax hle
  have hmillion : Scalar.wholeUpTo Scalar.doubleWordMax (Scalar.ofNat 1000000 : α) = 1000000 :=
    RoundedScalar.wholeUpTo_ofNat (by norm_num)
  have hzero : Scalar.wholeUpTo Scalar.doubleWordMax (Scalar.ofNat 0 : α) = 0 :=
    RoundedScalar.wholeUpTo_ofNat (by norm_num)
  exact absurd (hmillion.symm.trans_le (hmono.trans hzero.le)) (by norm_num)

omit [OrderedScalar α] in
theorem isFinite_million : Scalar.isFinite (1000000 : α) = true :=
  RoundedScalar.isFinite_ofNat (by decide)

end EncoderState

open EncoderState

/-- All reports on a text, by the states at the ends of its blocks. -/
theorem encoderReports_eq (totalFrames : Nat) (expected : α) (elapsed : Nat → α)
    (printed : String) : encoderReports totalFrames expected elapsed printed
      = (start.blocks (Text.pieces printed.toList)).mapIdx fun k s =>
        s.report totalFrames expected (elapsed (0 + k)) :=
  reportsFrom_eq totalFrames expected elapsed _ _ 0

variable [OrderedScalar α] [RoundedScalar α]

/-- Every report shows a progress in its range if every state that is reported allows it. -/
theorem encoderReports_progress_iff (totalFrames : Nat) (expected : α) (elapsed : Nat → α)
    (printed : String) :
    (∀ r ∈ encoderReports totalFrames expected elapsed printed, 0 ≤ r.progress ∧ r.progress ≤ 1)
      ↔ ∀ s ∈ (start : EncoderState α).blocks (Text.pieces printed.toList),
        s.ended = true ∨ expected ≤ 0 ∨ HasShare s.outTime expected := by
  rw [encoderReports_eq]
  constructor
  · intro h s hs
    obtain ⟨k, hk, rfl⟩ := List.mem_iff_getElem.mp hs
    refine (report_inRange_iff _ totalFrames expected (elapsed (0 + k))).mp (h _ ?_)
    exact List.mem_mapIdx.mpr ⟨k, hk, rfl⟩
  · intro h r hr
    obtain ⟨k, hk, rfl⟩ := List.mem_mapIdx.mp hr
    exact (report_inRange_iff _ totalFrames expected _).mpr (h _ (List.getElem_mem hk))

/-- **Which reports are in range.**  The progress is, but where a block that is not the last
leaves a time without a share in a positive expected length; the frames always are, as far as
a scalar counts them, which it does for every pipeline; and a time that is no figure is
ignored, but one that is no finite number is not. -/
theorem encoderReports_inRange_iff {totalFrames : Nat}
    (htotal : totalFrames ≤ Scalar.doubleWordMax) (expected : α) (elapsed : Nat → α)
    (printed : String) :
    ((∀ r ∈ encoderReports totalFrames expected elapsed printed, 0 ≤ r.progress ∧ r.progress ≤ 1)
        ↔ ∀ s ∈ (start : EncoderState α).blocks (Text.pieces printed.toList),
          s.ended = true ∨ expected ≤ 0 ∨ HasShare s.outTime expected)
      ∧ (∀ r ∈ encoderReports totalFrames expected elapsed printed,
        r.totalFrames = totalFrames ∧ r.framesRendered
          ≤ Scalar.wholeUpTo Scalar.doubleWordMax (Scalar.ofNat totalFrames : α))
      ∧ ((totalFrames < 2 ^ 53 ∨ ∃ p : Pipeline α, totalFrames = p.totalFrames) →
        Scalar.wholeUpTo Scalar.doubleWordMax (Scalar.ofNat totalFrames : α) = totalFrames)
      ∧ ∀ (s : EncoderState α) (key value : String), IsTimeKey key →
        (Decimal.readFigure value = none → s.update key value = s)
        ∧ ∀ f, Decimal.readFigure value = some f → Scalar.isFinite (f.toScalar : α) = false →
          Scalar.isFinite (s.update key value).outTime = false := by
  refine ⟨encoderReports_progress_iff totalFrames expected elapsed printed, ?_, ?_, ?_⟩
  · intro r hr
    rw [encoderReports_eq] at hr
    obtain ⟨k, hk, rfl⟩ := List.mem_mapIdx.mp hr
    exact ⟨rfl, report_framesRendered_le _ htotal expected _⟩
  · intro h
    rcases h with hsmall | ⟨p, rfl⟩
    · exact RoundedScalar.wholeUpTo_ofNat hsmall
    · exact RoundedScalar.wholeUpTo_whole _
  · intro s key value hkey
    rw [update_time hkey]
    constructor
    · intro hread
      rw [hread]
    · intro f hread hfinite
      rw [hread]
      exact RoundedScalar.isFinite_div hfinite isFinite_million

/-- All reports are in range where the expected length is finite and no line gives the
undefined value as its time. -/
theorem encoderReports_progress_inRange [LawfulScalar α] (totalFrames : Nat) {expected : α}
    (hexpected : Scalar.isFinite expected = true) (elapsed : Nat → α) (printed : String)
    (htold : ∀ line ∈ Text.pieces printed.toList, ∀ f, Tells line f →
      Scalar.isUndefined (f.toScalar : α) = false) :
    ∀ r ∈ encoderReports totalFrames expected elapsed printed, 0 ≤ r.progress ∧ r.progress ≤ 1 := by
  have hdefined {x : α} (hx : Scalar.isFinite x = true) : Scalar.isUndefined x = false :=
    (OrderedScalar.isUndefined_of_le (LawfulScalar.le_infinity_add hx hx)).1
  rw [encoderReports_progress_iff]
  intro s hs
  refine .inr (.inr ⟨?_, hdefined hexpected, .inr hexpected⟩)
  obtain ⟨before, line, after, hlines, -, rfl⟩ := (mem_blocks_iff _ _).mp hs
  rcases foldl_follow_outTime (before ++ [line]) (start : EncoderState α) with
    hstart | ⟨told, hmem, f, htells, htime⟩
  · rw [hstart]
    exact OrderedScalar.isUndefined_zero
  · rw [htime, isUndefined_div_eq_false not_million_le_zero]
    have hprinted : told ∈ Text.pieces printed.toList := by
      rw [hlines]
      simp only [List.mem_append, List.mem_cons, List.not_mem_nil, or_false] at hmem ⊢
      tauto
    exact ⟨htold told hprinted f htells, hdefined isFinite_million, .inr isFinite_million⟩

/-- Half-way through and at the end. -/
theorem encoderReports_inRange_iff_half :
    let printed := "out_time_us=4000000\nprogress=continue\nout_time_us=8000000\nprogress=end\n"
    120 ≤ Scalar.doubleWordMax
      ∧ (encoderReports 120 (8 : Float) (fun _ => 0) printed).map
          (fun r => (r.progress, r.framesRendered)) = [(0.5, 60), (1, 120)]
      ∧ ∀ r ∈ encoderReports 120 (8 : Float) (fun _ => 0) printed,
        r.totalFrames = 120 ∧ r.framesRendered ≤ 120 := by
  intro printed
  have htotal : 120 ≤ Scalar.doubleWordMax := by decide
  have hreports : (encoderReports 120 (8 : Float) (fun _ => 0) printed).map
      (fun r => (r.progress, r.framesRendered)) = [(0.5, 60), (1, 120)] := by decide +kernel
  obtain ⟨-, hframes, hcount, -⟩ :=
    encoderReports_inRange_iff htotal (8 : Float) (fun _ => 0) printed
  rw [hcount (.inl (by norm_num))] at hframes
  exact ⟨htotal, hreports, hframes⟩

/-- The progress is undefined after `nan`, and beyond `2^53` frames a double may count one
too many. -/
theorem encoderReports_may_leave_range :
    let undefined := "out_time_us=2000000\nout_time_us=nan\nprogress=continue\n"
    let whole := "out_time_us=8000000\nprogress=continue\n"
    let s : EncoderState Float := ⟨2, false⟩
    (encoderReports 120 (8 : Float) (fun _ => 0) undefined).map
        (fun r => Scalar.isUndefined r.progress) = [true]
      ∧ Scalar.isUndefined (s.update "out_time_us" "nan").outTime = true
      ∧ (encoderReports 9007199254740995 (8 : Float) (fun _ => 0) whole).map
        (fun r => (r.totalFrames, r.framesRendered)) = [(9007199254740995, 9007199254740996)] := by
  decide +kernel

end GifEdit
