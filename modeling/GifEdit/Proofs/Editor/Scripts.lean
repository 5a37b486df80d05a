/-
  GifEdit.Proofs.Editor.Scripts
  ─────────────────────────────
  **SCRIPTS ARE LISTS OF LINES.**

  What a script says is decided line by line, and only by the lines that hold steps:

      stepLines    its trimmed pieces, without the blank ones and the comments
      ofText       the step of each of them

  So a line feed between two scripts puts their steps one after the other
  (`ofText_newline`), and blanks, blank lines and comments are not seen at all
  (`stepLines_respaced`).  A written step is one line, between braces, which is neither
  trimmed nor left out, and it is decoded to the step (`Step.carries`).
-/
import GifEdit.Editor.Script
import GifEdit.Proofs.Edit.Codec
import GifEdit.Proofs.Text.Lines

namespace GifEdit

open Json (Carries ReadsBack Schema)

variable {α : Type} [Scalar α] [Legible α]

/-! ## §1. Steps come back. -/

/-- A phase comes back by its name. -/
theorem Phase.carries (origin : Json.Origin) (p : Phase) : Carries (decode origin) p.toJson p := by
  refine ⟨Json.readable_string p.name, ?_⟩
  rw [toJson, Json.reread_string]
  cases p <;> rfl

namespace Step

/-- The numbers of a step. -/
def numbers : Step α → List α
  | .canvas _ x y => [x, y]
  | .timeline _ x => [x]
  | .seek t => [t]
  | .markZoomIn | .placeZoomOut | .clearCrop | .preset _ => []

/-- Fields that are no kind are kept, if they are JSON. -/
theorem findKind_kept {fields : List (String × Json)} (hon : ∀ f ∈ fields, f.1 ≠ "on")
    (hkept : ∀ f ∈ fields, Json.keptFault? keptDepth f.2 = none) (kind : Option StepKind) :
    findKind kind (fields.map fun f => (.ok f.1, f.2))
      = .ok (kind, fields.map fun f => (.ok f.1, f.2)) := by
  induction fields with
  | nil => rfl
  | cons f fields ih =>
      rw [List.forall_mem_cons] at hon hkept
      rw [List.map_cons, findKind, if_neg hon.1, hkept.1, ih hon.2 hkept.2]
      rfl

omit [Legible α] in
/-- **A step is decoded by its kind from its other fields.** -/
theorem decode_tagged {name : String} {kind : StepKind} {fields : List (String × Json)}
    (hkind : Json.pickName StepKind.names name = .ok kind) (hon : ∀ f ∈ fields, f.1 ≠ "on")
    (hkept : ∀ f ∈ fields, Json.keptFault? keptDepth f.2 = none) :
    (decode (.record (("on", .string name) :: fields)) : Except _ (Step α))
      = ofKept kind (.record fields) := by
  have hfind : findKind none ((("on", Json.string name) :: fields).map fun f => (.ok f.1, f.2))
      = .ok (some kind, fields.map fun f => (.ok f.1, f.2)) := by
    rw [List.map_cons, findKind, if_pos rfl]
    simp only [StepKind.decode, hkind, ok_bind, findKind_kept hon hkept]
    rfl
  unfold Json.record decode
  dsimp only
  rw [hfind]
  rfl

omit [Legible α] in
/-- A step comes back with the name of its kind in front, if its fields do. -/
theorem carries_tagged (kind : StepKind) {name : String} {fields : List (String × Json)}
    {step : Step α} (hkind : Json.pickName StepKind.names name = .ok kind)
    (hon : ∀ f ∈ fields, f.1 ≠ "on")
    (hkept : ∀ f ∈ fields, Json.keptFault? keptDepth f.2.reread = none)
    (h : Carries (ofKept kind) (.record fields) step) :
    Carries decode (.record (("on", .string name) :: fields)) step := by
  have hreadable := (Json.readable_record fields).mp h.readable
  refine ⟨?_, ?_⟩
  · rw [Json.readable_record, List.forall_mem_cons]
    exact ⟨Json.readable_string name, hreadable⟩
  · have hdecoded := h.decoded
    rw [Json.reread_record] at hdecoded ⊢
    rw [List.map_cons, Json.reread_string]
    refine (decode_tagged hkind ?_ ?_).trans hdecoded
    · rw [List.forall_mem_map]
      exact hon
    · rw [List.forall_mem_map]
      exact hkept

/-- A scalar is kept as it is. -/
theorem kept_scalar {x : α} (h : ReadsBack x) (depth : Nat) :
    Json.keptFault? depth (Json.scalar x).reread = none := by
  obtain ⟨n, hn, -⟩ := Json.decodeScalar_eq_ok.mp h.decode
  rw [hn, Json.keptFault?]

theorem kept_string (s : String) (depth : Nat) :
    Json.keptFault? depth (.string s) = none := by
  rw [Json.keptFault?]

omit [Legible α] in
/-- A step without values carries itself. -/
theorem carries_bare (kind : StepKind) {name : String} {step : Step α}
    (hkind : Json.pickName StepKind.names name = .ok kind)
    (hkept : (ofKept kind : Json.Decoder (Step α)) = (bareSchema step).decode .kept) :
    Carries decode (.record [("on", .string name)]) step := by
  refine carries_tagged kind hkind (by simp) (by simp) ?_
  rw [hkept]
  exact Schema.carries_record .kept () rfl (by simp [bareSchema]) (by simp) rfl rfl

/-- **Every step carries itself**, if its numbers read back. -/
theorem carries {step : Step α} (h : ∀ x ∈ step.numbers, ReadsBack x) :
    Carries decode step.toJson step := by
  cases step with
  | canvas phase x y =>
      have hphase := Phase.carries .kept phase
      have hx := h x (by simp [numbers])
      have hy := h y (by simp [numbers])
      refine carries_tagged .canvas rfl (by simp) ?_ ?_
      · simp [kept_scalar hx, kept_scalar hy, Phase.toJson, kept_string]
      · refine Schema.carries_record .kept ⟨some phase, some x, some y⟩ rfl
          (by simp [canvasSchema]) (by simp [hphase.readable, hx.readable, hy.readable]) ?_ rfl
        simp [canvasSchema, FoundEvent.put, hphase.decoded, hx.decode, hy.decode]
  | timeline phase x =>
      have hphase := Phase.carries .kept phase
      have hx := h x (by simp [numbers])
      refine carries_tagged .timeline rfl (by simp) ?_ ?_
      · simp [kept_scalar hx, Phase.toJson, kept_string]
      · refine Schema.carries_record .kept ⟨some phase, some x, none⟩ rfl
          (by simp [timelineSchema]) (by simp [hphase.readable, hx.readable]) ?_ rfl
        simp [timelineSchema, FoundEvent.put, hphase.decoded, hx.decode]
  | seek t =>
      have ht := h t (by simp [numbers])
      refine carries_tagged .seek rfl (by simp) ?_ ?_
      · simp [kept_scalar ht]
      · refine Schema.carries_record .kept (some t) rfl (by simp [seekSchema])
          (by simp [ht.readable]) ?_ rfl
        simp [seekSchema, ht.decode]
  | markZoomIn => exact carries_bare .markZoomIn rfl rfl
  | placeZoomOut => exact carries_bare .placeZoomOut rfl rfl
  | clearCrop => exact carries_bare .clearCrop rfl rfl
  | preset quality =>
      have hquality := Quality.carries .kept quality
      refine carries_tagged .preset rfl (by simp) ?_ ?_
      · simp [Quality.toJson, kept_string]
      · refine Schema.carries_record .kept (some quality) rfl (by simp [presetSchema])
          (by simp [hquality.readable]) ?_ rfl
        simp [presetSchema, hquality.decoded]

end Step

/-! ## §2. Scripts line by line. -/

namespace Script

/-- The lines of steps, without the way in which a text is cut into lines. -/
theorem stepLines_eq (cs : List Char) :
    stepLines cs = ((Text.pieces cs).map Text.trim).filter isStep :=
  Text.filter_map_trim_lines rfl cs

/-- A line feed separates scripts. -/
theorem stepLines_append (a b : List Char) :
    stepLines (a ++ '\n' :: b) = stepLines a ++ stepLines b := by
  simp only [stepLines_eq, Text.pieces_append, List.map_append, List.filter_append]

/-- A script that was put together of lines. -/
theorem stepLines_joined {lines : List (List Char)} (hlines : ∀ line ∈ lines, '\n' ∉ line) :
    stepLines (Text.joined lines) = (lines.map Text.trim).filter isStep := by
  cases lines with
  | nil => rfl
  | cons line rest => rw [stepLines_eq, Text.pieces_joined (List.cons_ne_nil line rest) hlines]

/-- What follows from the lines that hold steps. -/
def ofLines (lines : List (List Char)) : Except Json.Problem (List (Step α)) :=
  lines.mapM fun line => Json.decodeDocument Step.decode (String.ofList line)

omit [Legible α] in
theorem ofText_eq (text : String) :
    (ofText text : Except _ (List (Step α))) = ofLines (stepLines text.toList) := rfl

omit [Legible α] in
/-- **Scripts with a line feed between them are read one after the other.** -/
theorem ofText_newline (a b : String) :
    (ofText (a ++ "\n" ++ b) : Except _ (List (Step α)))
      = do return (← ofText a) ++ (← ofText b) := by
  have htext : (a ++ "\n" ++ b).toList = a.toList ++ '\n' :: b.toList := by simp
  rw [ofText_eq, htext, stepLines_append, ofLines, List.mapM_append]
  rfl

/-! ## §3. Written scripts. -/

omit [Scalar α] in
/-- A written step stands between braces. -/
theorem compact_eq (step : Step α) :
    ∃ middle, step.toJson.compact = '\x7b' :: (middle ++ ['\x7d']) := by
  have hrecord : ∃ f fields, step.toJson = .record (f :: fields) := by
    cases step <;> exact ⟨_, _, rfl⟩
  obtain ⟨f, fields, hrecord⟩ := hrecord
  rw [hrecord]
  refine ⟨Json.writeString f.1 ++ ':' :: (f.2.compact
    ++ Json.compactEntries (fields.map fun f => (.ok f.1, f.2))), ?_⟩
  simp [Json.record, Json.compact, Json.writeKey, Except.toOption]

omit [Scalar α] in
/-- A written step is one line that is neither trimmed nor left out. -/
theorem stepLines_compact (step : Step α) :
    stepLines step.toJson.compact = [step.toJson.compact] := by
  have hline := Json.newline_notMem_compact step.toJson
  obtain ⟨middle, hcompact⟩ := compact_eq step
  have htrim : Text.trim step.toJson.compact = step.toJson.compact := by
    rw [hcompact]
    exact Text.trim_of_ends (by decide) (by decide) middle
  have hstep : isStep step.toJson.compact = true := by
    rw [hcompact]
    rfl
  rw [stepLines_eq, Text.pieces_of_notMem hline, List.map_singleton, htrim,
    List.filter_cons_of_pos hstep, List.filter_nil]

omit [Scalar α] in
/-- The lines of a written script are the texts of its steps. -/
theorem stepLines_text (steps : List (Step α)) :
    stepLines (text steps).toList = steps.map fun step => step.toJson.compact := by
  unfold text
  rw [String.toList_ofList]
  induction steps with
  | nil => rfl
  | cons step steps ih =>
      rw [List.flatMap_cons, List.append_assoc, List.singleton_append, stepLines_append,
        stepLines_compact, ih]
      rfl

/-- **A written script is read as its steps.** -/
theorem ofText_text {steps : List (Step α)}
    (h : ∀ step ∈ steps, ∀ x ∈ step.numbers, ReadsBack x) : ofText (text steps) = .ok steps := by
  rw [ofText_eq, stepLines_text]
  induction steps with
  | nil => rfl
  | cons step steps ih =>
      rw [List.forall_mem_cons] at h
      have hstep : Json.decodeDocument Step.decode (String.ofList step.toJson.compact) = .ok step :=
        (Step.carries h.1).compactText
      have hrest := ih h.2
      unfold ofLines at hrest ⊢
      rw [List.map_cons, List.mapM_cons, hstep, ok_bind, hrest]
      rfl

/-! ## §4. Scripts laid out otherwise. -/

/-- Blanks within a line. -/
def Spaces (gap : List Char) : Prop := ∀ c ∈ gap, Text.isBlank c = true ∧ c ≠ '\n'

instance (gap : List Char) : Decidable (Spaces gap) :=
  gap.decidableBAll fun c => Text.isBlank c = true ∧ c ≠ '\n'

/-- The same lines, apart from blanks around them and from lines without a step between
them. -/
inductive Respaced : List (List Char) → List (List Char) → Prop
  | nil : Respaced [] []
  | line {before before' after after' lines lines'} (core) (hbefore : Spaces before)
      (hafter : Spaces after) (hbefore' : Spaces before') (hafter' : Spaces after')
      (h : Respaced lines lines') :
      Respaced ((before ++ core ++ after) :: lines) ((before' ++ core ++ after') :: lines')
  | blank {gap lines lines'} (hgap : Spaces gap) (h : Respaced lines lines') :
      Respaced lines (gap :: lines')
  | comment {gap lines lines'} (words) (hgap : Spaces gap) (hwords : '\n' ∉ words)
      (h : Respaced lines lines') : Respaced lines ((gap ++ '#' :: words) :: lines')

/-- Spaces around a line do not break it. -/
theorem newline_notMem_surrounded {before core after : List Char} (hbefore : Spaces before)
    (hcore : '\n' ∉ core) (hafter : Spaces after) : '\n' ∉ before ++ core ++ after := by
  intro hmem
  rw [List.mem_append, List.mem_append] at hmem
  rcases hmem with (hmem | hmem) | hmem
  · exact (hbefore '\n' hmem).2 rfl
  · exact hcore hmem
  · exact (hafter '\n' hmem).2 rfl

/-- Lines stay lines. -/
theorem Respaced.newline_notMem {lines lines' : List (List Char)} (h : Respaced lines lines')
    (hlines : ∀ line ∈ lines, '\n' ∉ line) : ∀ line ∈ lines', '\n' ∉ line := by
  induction h with
  | nil => exact hlines
  | line core hbefore hafter hbefore' hafter' h ih =>
      rw [List.forall_mem_cons] at hlines ⊢
      have hcore : '\n' ∉ core := by
        intro hmem
        exact hlines.1 (List.mem_append_left _ (List.mem_append_right _ hmem))
      exact ⟨newline_notMem_surrounded hbefore' hcore hafter', ih hlines.2⟩
  | blank hgap h ih =>
      rw [List.forall_mem_cons]
      exact ⟨fun hmem => (hgap '\n' hmem).2 rfl, ih hlines⟩
  | comment words hgap hwords h ih =>
      rw [List.forall_mem_cons]
      refine ⟨?_, ih hlines⟩
      intro hmem
      rcases List.mem_append.mp hmem with hmem | hmem
      · exact (hgap '\n' hmem).2 rfl
      · rcases List.mem_cons.mp hmem with heq | hmem
        · exact nomatch heq
        · exact hwords hmem

theorem Spaces.isBlank {gap : List Char} (h : Spaces gap) : ∀ c ∈ gap, Text.isBlank c = true :=
  fun c hc => (h c hc).1

/-- A blank line holds no step. -/
theorem isStep_blank {gap : List Char} (h : Spaces gap) : isStep (Text.trim gap) = false := by
  unfold Text.trim
  rw [Text.trimFront_eq_nil h.isBlank]
  rfl

/-- Neither does a comment. -/
theorem isStep_comment {gap : List Char} (h : Spaces gap) (words : List Char) :
    isStep (Text.trim (gap ++ '#' :: words)) = false := by
  have hnil : Spaces [] := fun c hc => absurd hc List.not_mem_nil
  have htrim := Text.trim_surrounded h.isBlank hnil.isBlank ('#' :: words)
  rw [List.append_nil] at htrim
  rw [htrim, Text.trim_cons (by decide)]
  rfl

/-- **Blanks, blank lines and comments hold nothing.** -/
theorem Respaced.filter_trim {lines lines' : List (List Char)} (h : Respaced lines lines') :
    (lines'.map Text.trim).filter isStep = (lines.map Text.trim).filter isStep := by
  induction h with
  | nil => rfl
  | line core hbefore hafter hbefore' hafter' h ih =>
      rw [List.map_cons, List.map_cons, Text.trim_surrounded hbefore.isBlank hafter.isBlank,
        Text.trim_surrounded hbefore'.isBlank hafter'.isBlank, List.filter_cons, List.filter_cons,
        ih]
  | blank hgap h ih =>
      rw [List.map_cons, List.filter_cons_of_neg (Bool.eq_false_iff.mp (isStep_blank hgap)), ih]
  | comment words hgap hwords h ih =>
      have hcomment := Bool.eq_false_iff.mp (isStep_comment hgap words)
      rw [List.map_cons, List.filter_cons_of_neg hcomment, ih]

omit [Legible α] in
/-- A script says the same when it is laid out otherwise. -/
theorem ofText_respaced (text : String) {lines : List (List Char)}
    (h : Respaced (Text.pieces text.toList) lines) :
    (ofText (String.ofList (Text.joined lines)) : Except _ (List (Step α))) = ofText text := by
  have hlines : ∀ line ∈ lines, '\n' ∉ line :=
    h.newline_notMem fun _ hpiece => Text.newline_notMem_pieces hpiece
  rw [ofText_eq, ofText_eq, String.toList_ofList, stepLines_joined hlines, h.filter_trim,
    stepLines_eq]

/-! ## §5. The laws of scripts. -/

/-- **Scripts are lists of lines.**  A written script is read as its steps, and two of them in
a row as all of their steps; texts with a line feed between them give the steps of the first
and then those of the second; and blanks around lines, blank lines and comments change
nothing, not even what is wrong with a script. -/
theorem scripts_are_lists_of_lines :
    (∀ xs ys : List (Step α),
        (∀ step ∈ xs ++ ys, ∀ x ∈ step.numbers, Scalar.isFinite x = true) →
        (∀ step ∈ xs ++ ys, ∀ x ∈ step.numbers, Scalar.isFinite x = true → ReadsBack x) →
        ofText (text xs) = .ok xs ∧ ofText (text xs ++ text ys) = .ok (xs ++ ys))
      ∧ (∀ (a b : String) (xs ys : List (Step α)), ofText a = .ok xs → ofText b = .ok ys →
          ofText (a ++ "\n" ++ b) = .ok (xs ++ ys))
      ∧ ∀ (text : String) (lines : List (List Char)),
          Respaced (Text.pieces text.toList) lines →
          (ofText (String.ofList (Text.joined lines)) : Except _ (List (Step α))) = ofText text := by
  refine ⟨?_, ?_, fun text lines h => ofText_respaced text h⟩
  · intro xs ys hfinite hreads
    have hback : ∀ step ∈ xs ++ ys, ∀ x ∈ step.numbers, ReadsBack x :=
      fun step hstep x hx => hreads step hstep x hx (hfinite step hstep x hx)
    have htext : text xs ++ text ys = text (xs ++ ys) := by
      unfold text
      rw [List.flatMap_append, String.ofList_append]
    refine ⟨ofText_text fun step hstep => hback step (List.mem_append_left ys hstep), ?_⟩
    rw [htext]
    exact ofText_text hback
  · intro a b xs ys ha hb
    rw [ofText_newline, ha, hb]
    rfl

/-- A drawn crop, a zoom-in and a preset. -/
def recorded : List (Step Float) :=
  [.canvas .down 10.5 20.0, .canvas .up 330.5 200.0, .seek 3.25, .markZoomIn,
    .timeline .leave 0.1, .preset .low]

theorem scripts_are_lists_of_lines_recorded :
    ofText (text recorded) = .ok recorded
      ∧ ofText (text recorded ++ text recorded) = .ok (recorded ++ recorded)
      ∧ ofText ("\x7b\"on\":\"seek\",\"t\":1.5\x7d" ++ "\n"
          ++ "# go\n \x7b\"on\":\"clear_crop\"\x7d\r\n")
        = .ok [Step.seek (1.5 : Float), .clearCrop]
      ∧ (ofText (String.ofList (Text.joined
            ["  # go".toList, " ".toList ++ "\x7b\"on\":\"clear_crop\"\x7d".toList
              ++ "\t\r".toList]))
          : Except _ (List (Step Float))) = ofText "\x7b\"on\":\"clear_crop\"\x7d" := by
  obtain ⟨hwritten, hnewline, hspaced⟩ := @scripts_are_lists_of_lines Float _ _
  have hfinite : ∀ step ∈ recorded ++ recorded, ∀ x ∈ step.numbers,
      Scalar.isFinite x = true := by decide +kernel
  have hreads : ∀ step ∈ recorded ++ recorded, ∀ x ∈ step.numbers, ReadsBack x := by
    decide +kernel
  obtain ⟨hone, htwo⟩ :=
    hwritten recorded recorded hfinite fun step hstep x hx _ => hreads step hstep x hx
  have hspaces : ∀ gap ∈ [[], [' '], [' ', ' '], ['\t', '\r']], Spaces gap := by decide
  refine ⟨hone, htwo, hnewline _ _ [.seek 1.5] [.clearCrop] (by decide +kernel)
    (by decide +kernel), ?_⟩
  exact hspaced _ _ (.comment [' ', 'g', 'o'] (hspaces [' ', ' '] (by decide)) (by decide)
    (.line "\x7b\"on\":\"clear_crop\"\x7d".toList (hspaces [] (by decide))
      (hspaces [] (by decide)) (hspaces [' '] (by decide)) (hspaces ['\t', '\r'] (by decide))
      .nil))

end Script

end GifEdit
