/-
  GifEdit.Proofs.Render.Dataflow
  ──────────────────────────────
  **STAGES THAT RUN ARE CONNECTED.**

  A stage takes its inputs away from the streams that are ready, so a run keeps
  account of every label:

      consumed by stages + ready at the end  =  ready at the start + produced by stages

  as lists up to order (`runStages?_perm`).  It follows that what a stage reads is
  produced before it, and, where no label is produced twice, that nothing is read
  twice.  This holds for every meaning of the filters.

  The other half of the file is about running: streams that a list of stages does not
  read stay in front of the others, in their order.
-/
import GifEdit.Render.Dataflow
import Mathlib.Data.List.Perm.Basic

namespace GifEdit

variable {α β : Type} {meaning : FilterMeaning α β}

/-! ## §1. Taking streams. -/

namespace Ready

/-- The labels of the streams that are ready. -/
def labels (ready : Ready β) : List Label := ready.map Prod.fst

@[simp] theorem labels_append (first second : Ready β) :
    (first ++ second : Ready β).labels = first.labels ++ second.labels := List.map_append

@[simp] theorem labels_cons (l : Label) (b : β) (ready : Ready β) :
    Ready.labels ((l, b) :: ready) = l :: ready.labels := rfl

theorem labels_zip {ls : List Label} {bs : List β} (h : bs.length = ls.length) :
    Ready.labels (ls.zip bs) = ls := List.map_fst_zip (Nat.le_of_eq h.symm)

variable {label : Label} {b : β} {ready others : Ready β}

/-- Taking a stream takes its entry and nothing else. -/
theorem take?_entries (h : ready.take? label = some (b, others)) :
    ((label, b) :: others).Perm ready := by
  induction ready generalizing others with
  | nil => exact nomatch h
  | cons entry ready ih =>
      obtain ⟨l, c⟩ := entry
      unfold take? at h
      by_cases hl : l = label
      · rw [if_pos hl] at h
        obtain ⟨rfl, rfl⟩ := Prod.mk.inj (Option.some.inj h)
        rw [hl]
      · -- The entry is passed over and stays in front of what is left.
        rw [if_neg hl, Option.map_eq_some_iff] at h
        obtain ⟨⟨found, rest⟩, hrest, hothers⟩ := h
        obtain ⟨rfl, rfl⟩ := Prod.mk.inj hothers
        exact (List.Perm.swap (l, c) (label, found) rest).trans ((ih hrest).cons (l, c))

/-- Streams that are taken are missing in what is left, and nothing else is. -/
theorem takeAll?_entries {ls : List Label} {bs : List β}
    (h : ready.takeAll? ls = some (bs, others)) :
    (ls.zip bs ++ others).Perm ready ∧ bs.length = ls.length := by
  induction ls generalizing ready bs with
  | nil =>
      obtain ⟨rfl, rfl⟩ := Prod.mk.inj (Option.some.inj h)
      exact ⟨List.Perm.refl _, rfl⟩
  | cons label ls ih =>
      unfold takeAll? at h
      simp only [Option.bind_eq_bind, Option.bind_eq_some_iff] at h
      obtain ⟨⟨c, middle⟩, htake, ⟨cs, rest⟩, htakes, hresult⟩ := h
      obtain ⟨rfl, rfl⟩ := Prod.mk.inj (Option.some.inj hresult)
      obtain ⟨hperm, hlength⟩ := ih htakes
      exact ⟨(hperm.cons (label, c)).trans (take?_entries htake), congrArg (· + 1) hlength⟩

theorem takeAll?_perm {ls : List Label} {bs : List β}
    (h : ready.takeAll? ls = some (bs, others)) :
    (ls ++ others.labels).Perm ready.labels ∧ bs.length = ls.length := by
  obtain ⟨hentries, hlength⟩ := takeAll?_entries h
  have hlabels : (Ready.labels (ls.zip bs ++ others)).Perm ready.labels := hentries.map Prod.fst
  rw [labels_append, labels_zip hlength] at hlabels
  exact ⟨hlabels, hlength⟩

/-- A stream is found behind streams of other labels. -/
theorem take?_append {front back : Ready β} (h : label ∉ front.labels) :
    Ready.take? (front ++ (label, b) :: back) label = some (b, front ++ back) := by
  induction front with
  | nil =>
      unfold take?
      exact if_pos rfl
  | cons entry front ih =>
      obtain ⟨l, c⟩ := entry
      rw [labels_cons, List.mem_cons, not_or] at h
      show (if l = label then some (c, front ++ (label, b) :: back)
        else (Ready.take? (front ++ (label, b) :: back) label).map _) = _
      rw [if_neg (Ne.symm h.1), ih h.2]
      rfl

/-- Several streams in a row are taken from the end, in this order. -/
theorem takeAll?_zip {front : Ready β} {ls : List Label} {bs : List β}
    (hlength : bs.length = ls.length) (h : ∀ l ∈ ls, l ∉ front.labels) :
    Ready.takeAll? (front ++ ls.zip bs) ls = some (bs, front) := by
  induction ls generalizing bs with
  | nil =>
      obtain rfl := List.eq_nil_of_length_eq_zero hlength
      show some ([], front ++ []) = some ([], front)
      rw [List.append_nil]
  | cons label ls ih =>
      obtain ⟨b, bs, rfl⟩ := List.exists_cons_of_length_eq_add_one hlength
      have hrest := ih (Nat.succ.inj hlength) fun l hl => h l (List.mem_cons_of_mem _ hl)
      rw [List.zip_cons_cons]
      unfold takeAll?
      rw [take?_append (h label List.mem_cons_self)]
      show (Ready.takeAll? (front ++ ls.zip bs) ls).bind _ = _
      rw [hrest]
      rfl

end Ready

/-! ## §2. The account of a run. -/

/-- What a stage did when it ran. -/
theorem Stage.run?_eq_some {s : Stage α} {ready next : Ready β}
    (h : s.run? meaning ready = some next) :
    ∃ taken others made, ready.takeAll? s.inputs = some (taken, others)
      ∧ meaning s.operation taken = some made ∧ made.length = s.outputs.length
      ∧ next = others ++ s.outputs.zip made := by
  unfold Stage.run? at h
  simp only [Option.bind_eq_bind, Option.bind_eq_some_iff] at h
  obtain ⟨⟨taken, others⟩, htaken, made, hmade, hnext⟩ := h
  by_cases hlength : made.length = s.outputs.length
  · simp only [hlength, if_true] at hnext
    exact ⟨taken, others, made, htaken, hmade, hlength, (Option.some.inj hnext).symm⟩
  · simp only [hlength, if_false] at hnext
    exact nomatch hnext

/-- A stage takes its inputs out and puts its outputs in. -/
theorem Stage.run?_perm {s : Stage α} {ready next : Ready β}
    (h : s.run? meaning ready = some next) :
    (s.inputs ++ next.labels).Perm (ready.labels ++ s.outputs) := by
  obtain ⟨taken, others, made, htaken, -, hlength, rfl⟩ := Stage.run?_eq_some h
  rw [Ready.labels_append, Ready.labels_zip hlength, ← List.append_assoc]
  exact (Ready.takeAll?_perm htaken).1.append_right s.outputs

theorem runStages?_cons (s : Stage α) (stages : List (Stage α)) (ready : Ready β) :
    runStages? meaning (s :: stages) ready
      = (s.run? meaning ready).bind (runStages? meaning stages) := rfl

/-- **The account of a run**: what is consumed or left over was there or was produced. -/
theorem runStages?_perm {stages : List (Stage α)} {ready final : Ready β}
    (h : runStages? meaning stages ready = some final) :
    (stages.flatMap Stage.inputs ++ final.labels).Perm
      (ready.labels ++ stages.flatMap Stage.outputs) := by
  induction stages generalizing ready with
  | nil =>
      obtain rfl := Option.some.inj h
      rw [List.flatMap_nil, List.flatMap_nil, List.append_nil]
      exact List.Perm.refl _
  | cons s stages ih =>
      rw [runStages?_cons, Option.bind_eq_some_iff] at h
      obtain ⟨next, hnext, hrest⟩ := h
      rw [List.flatMap_cons, List.flatMap_cons, List.append_assoc]
      -- What the stage wrote is ready for the others: the two accounts are added up.
      have htail := (ih hrest).append_left s.inputs
      have hhead := (Stage.run?_perm hnext).append_right (stages.flatMap Stage.outputs)
      rw [List.append_assoc, List.append_assoc] at hhead
      exact htail.trans hhead

/-- **What a stage reads is there before it**: from the start, or from a stage before. -/
theorem runStages?_inputs {before after : List (Stage α)} {s : Stage α}
    {ready final : Ready β} (h : runStages? meaning (before ++ s :: after) ready = some final) :
    ∀ l ∈ s.inputs, l ∈ ready.labels ++ before.flatMap Stage.outputs := by
  intro l hl
  rw [runStages?_append, Option.bind_eq_some_iff] at h
  obtain ⟨middle, hbefore, hafter⟩ := h
  rw [runStages?_cons, Option.bind_eq_some_iff] at hafter
  obtain ⟨next, hnext, -⟩ := hafter
  obtain ⟨taken, others, made, htaken, -⟩ := Stage.run?_eq_some hnext
  -- It is ready before the stage, and the account of the stages before says from where.
  have hmiddle : l ∈ middle.labels :=
    (Ready.takeAll?_perm htaken).1.mem_iff.mp (List.mem_append_left _ hl)
  exact (runStages?_perm hbefore).mem_iff.mp (List.mem_append_right _ hmiddle)

/-- Every stage of a run was given as many streams as it reads, and made as many as it
writes. -/
theorem runStages?_arity {stages : List (Stage α)} {ready final : Ready β}
    (h : runStages? meaning stages ready = some final) :
    ∀ s ∈ stages, ∃ taken made, meaning s.operation taken = some made
      ∧ taken.length = s.inputs.length ∧ made.length = s.outputs.length := by
  intro s hs
  obtain ⟨before, after, rfl⟩ := List.append_of_mem hs
  rw [runStages?_append, Option.bind_eq_some_iff] at h
  obtain ⟨middle, -, hafter⟩ := h
  rw [runStages?_cons, Option.bind_eq_some_iff] at hafter
  obtain ⟨next, hnext, -⟩ := hafter
  obtain ⟨taken, others, made, htaken, hmade, hlength, -⟩ := Stage.run?_eq_some hnext
  exact ⟨taken, made, hmade, (Ready.takeAll?_perm htaken).2, hlength⟩

/-! ## §3. Running stages. -/

/-- A stage whose inputs are at the end, in their order. -/
theorem Stage.run?_zip {s : Stage α} {front : Ready β} {taken : List β} (made : List β)
    (htaken : taken.length = s.inputs.length) (hfresh : ∀ l ∈ s.inputs, l ∉ front.labels)
    (hmade : meaning s.operation taken = some made) (hlength : made.length = s.outputs.length) :
    s.run? meaning (front ++ s.inputs.zip taken) = some (front ++ s.outputs.zip made) := by
  unfold Stage.run?
  rw [Ready.takeAll?_zip htaken hfresh]
  show (meaning s.operation taken).bind _ = _
  rw [hmade]
  exact if_pos hlength

/-- A stage with one input, wherever it stands. -/
theorem Stage.run?_one {name : String} {operation : Operation α} {l : Label} {b : β}
    {outputs : List Label} (front : Ready β) {back : Ready β} (made : List β)
    (hfresh : l ∉ front.labels)
    (hmade : meaning operation [b] = some made) (hlength : made.length = outputs.length) :
    Stage.run? meaning ⟨name, operation, [l], outputs⟩ (front ++ (l, b) :: back)
      = some (front ++ back ++ outputs.zip made) := by
  unfold Stage.run? Ready.takeAll?
  rw [Ready.take?_append hfresh]
  show (meaning operation [b]).bind _ = _
  rw [hmade]
  exact if_pos hlength

theorem runStages?_singleton (s : Stage α) (ready : Ready β) :
    runStages? meaning [s] ready = s.run? meaning ready := by
  rw [runStages?_cons]
  exact Option.bind_fun_some _

/-- A stage with one input and one output, before others. -/
theorem runStages?_unary {name : String} {operation : Operation α} {l l' : Label} {b b' : β}
    {stages : List (Stage α)} (front : Ready β) {back : Ready β} (hfresh : l ∉ front.labels)
    (hmade : meaning operation [b] = some [b']) :
    runStages? meaning (⟨name, operation, [l], [l']⟩ :: stages) (front ++ (l, b) :: back)
      = runStages? meaning stages (front ++ back ++ [(l', b')]) := by
  rw [runStages?_cons, Stage.run?_one front _ hfresh hmade rfl]
  rfl

/-- The same for the stream that was made last. -/
theorem runStages?_pipe {name : String} {operation : Operation α} {l l' : Label} {b b' : β}
    {ready : Ready β} {stages : List (Stage α)} (hfresh : l ∉ ready.labels)
    (hmade : meaning operation [b] = some [b']) :
    runStages? meaning (⟨name, operation, [l], [l']⟩ :: stages) (ready ++ [(l, b)])
      = runStages? meaning stages (ready ++ [(l', b')]) := by
  rw [runStages?_unary ready hfresh hmade, List.append_nil]

/-- A stage with two inputs that are all there is. -/
theorem runStages?_binary {name : String} {operation : Operation α} {l m l' : Label} {b c b' : β}
    {stages : List (Stage α)} (hmade : meaning operation [b, c] = some [b']) :
    runStages? meaning (⟨name, operation, [l, m], [l']⟩ :: stages) [(l, b), (m, c)]
      = runStages? meaning stages [(l', b')] := by
  have hrun : Stage.run? meaning ⟨name, operation, [l, m], [l']⟩ ([] ++ [l, m].zip [b, c])
      = some ([] ++ [l'].zip [b']) :=
    Stage.run?_zip [b'] rfl (fun _ _ hmem => nomatch hmem) hmade rfl
  rw [runStages?_cons]
  exact congrArg (fun next => next.bind (runStages? meaning stages)) hrun

end GifEdit
