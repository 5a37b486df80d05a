/-
  GifEdit.Proofs.Render.Branches
  ──────────────────────────────
  **WAYS THROUGH A PLAN.**

  A way leads from one stream to another along stages, each of which reads the stream
  before it and writes the one after it.  Which ways there are is read off the labels, and
  what they pass off the terms: in a run that writes no label twice every label has one
  term, and

      a way to a label   =   a branch of the term of the label

  but for the splits, which are stages and no filters of a term.  So the ways through a
  plan are known from the term that it computes.

  An edit that keeps a segment computes the GIF that it asks for, in which every branch of
  the clip is trimmed, resampled and scaled once.  An edit may be accepted and keep nothing,
  if all of its stretches are too short; then the clip goes into the GIF as it is.

  Main result: `ways_cut_once_iff_kept`.
-/
import GifEdit.Proofs.Render.Frames
import GifEdit.Proofs.Render.Segments
import GifEdit.Proofs.Render.Wiring

namespace GifEdit

variable {α β : Type}

/-! ## §1. All streams of a run. -/

/-- The streams of a run, those that were consumed among them, under their labels. -/
structure History (meaning : FilterMeaning α β) (stages : List (Stage α))
    (ready final streams : Ready β) : Prop where
  labels : streams.labels.Perm (ready.labels ++ stages.flatMap Stage.outputs)
  first : ready ⊆ streams
  last : final ⊆ streams
  stage : ∀ s ∈ stages, ∃ taken made, meaning s.operation taken = some made
    ∧ (∀ l ∈ s.inputs, ∃ b ∈ taken, (l, b) ∈ streams)
    ∧ (∀ l ∈ s.outputs, ∃ b ∈ made, (l, b) ∈ streams)

theorem exists_mem_zip {ls : List Label} {bs : List β} (hlength : bs.length = ls.length)
    {l : Label} (hl : l ∈ ls) : ∃ b ∈ bs, (l, b) ∈ ls.zip bs := by
  rw [← Ready.labels_zip hlength] at hl
  obtain ⟨⟨_, b⟩, hmem, rfl⟩ := List.mem_map.mp hl
  exact ⟨b, (List.of_mem_zip hmem).2, hmem⟩

/-- What is found among some streams is found among more of them. -/
theorem exists_stream_of_subset {streams more : Ready β} (hsub : streams ⊆ more)
    {ls : List Label} {bs : List β} (h : ∀ l ∈ ls, ∃ b ∈ bs, (l, b) ∈ streams) :
    ∀ l ∈ ls, ∃ b ∈ bs, (l, b) ∈ more := by
  intro l hl
  obtain ⟨b, hb, hmem⟩ := h l hl
  exact ⟨b, hb, hsub hmem⟩

/-- **Every run has a history**, which knows of each label as often as it is written. -/
theorem exists_history {meaning : FilterMeaning α β} {stages : List (Stage α)}
    {ready final : Ready β} (h : runStages? meaning stages ready = some final) :
    ∃ streams, History meaning stages ready final streams := by
  -- On the stages: what the first stage took, and then the history of the others.
  induction stages generalizing ready with
  | nil =>
      obtain rfl := Option.some.inj h
      refine ⟨ready, ⟨?_, List.Subset.refl _, List.Subset.refl _, fun _ hs => nomatch hs⟩⟩
      rw [List.flatMap_nil, List.append_nil]
  | cons s stages ih =>
      rw [runStages?_cons, Option.bind_eq_some_iff] at h
      obtain ⟨next, hnext, hrest⟩ := h
      obtain ⟨streams, hstreams⟩ := ih hrest
      have haccount := Stage.run?_perm hnext
      obtain ⟨taken, others, made, htaken, hmade, hlength, rfl⟩ := Stage.run?_eq_some hnext
      obtain ⟨hentries, htakenLength⟩ := Ready.takeAll?_entries htaken
      -- What the stage took is gone for the others, so it is added to what they know of.
      refine ⟨s.inputs.zip taken ++ streams, ⟨?_, ?_, ?_, ?_⟩⟩
      · rw [Ready.labels_append, Ready.labels_zip htakenLength, List.flatMap_cons]
        have hlater := hstreams.labels.append_left s.inputs
        have hearlier := haccount.append_right (stages.flatMap Stage.outputs)
        rw [List.append_assoc, List.append_assoc] at hearlier
        exact hlater.trans hearlier
      · intro e he
        rcases List.mem_append.mp (hentries.mem_iff.mpr he) with he | he
        · exact List.mem_append_left _ he
        · exact List.mem_append_right _ (hstreams.first (List.mem_append_left _ he))
      · exact fun e he => List.mem_append_right _ (hstreams.last he)
      · have hlater : streams ⊆ s.inputs.zip taken ++ streams := List.subset_append_right _ _
        intro r hr
        rcases List.mem_cons.mp hr with rfl | hr
        · have hread : ∀ l ∈ r.inputs, ∃ b ∈ taken, (l, b) ∈ r.inputs.zip taken := fun _ =>
            exists_mem_zip htakenLength
          have hwritten : ∀ l ∈ r.outputs, ∃ b ∈ made, (l, b) ∈ r.outputs.zip made := fun _ =>
            exists_mem_zip hlength
          have hnew : r.outputs.zip made ⊆ streams := fun e he =>
            hstreams.first (List.mem_append_right _ he)
          exact ⟨taken, made, hmade, exists_stream_of_subset (List.subset_append_left _ _) hread,
            exists_stream_of_subset hlater (exists_stream_of_subset hnew hwritten)⟩
        · obtain ⟨taken', made', hmade', hread, hwritten⟩ := hstreams.stage r hr
          exact ⟨taken', made', hmade', exists_stream_of_subset hlater hread,
            exists_stream_of_subset hlater hwritten⟩

/-- Labels that are written once have one stream. -/
theorem stream_unique {streams : Ready β} (hnodup : streams.labels.Nodup) {l : Label} {b c : β}
    (hb : (l, b) ∈ streams) (hc : (l, c) ∈ streams) : b = c :=
  congrArg Prod.snd (List.inj_on_of_nodup_map hnodup hb hc rfl)

/-! ## §2. Ways. -/

/-- The stages `path` lead from the stream `start` to a stream. -/
inductive Leads (stages : List (Stage α)) (start : Label) : List (Stage α) → Label → Prop where
  | here : Leads stages start [] start
  | step {path : List (Stage α)} {s : Stage α} {l m : Label} :
      Leads stages start path l → s ∈ stages → l ∈ s.inputs → m ∈ s.outputs →
      Leads stages start (path ++ [s]) m

namespace Leads

variable {stages : List (Stage α)} {k l m : Label} {path : List (Stage α)} {s : Stage α}

/-- A way that starts with a stage. -/
theorem cons (hs : s ∈ stages) (hk : k ∈ s.inputs) (hl : l ∈ s.outputs)
    (h : Leads stages l path m) : Leads stages k (s :: path) m := by
  induction h with
  | here => exact .step .here hs hk hl
  | step _ hr hin hout ih => exact .step ih hr hin hout

theorem later (h : Leads stages l path m) : Leads (s :: stages) l path m := by
  induction h with
  | here => exact .here
  | step _ hr hin hout ih => exact .step ih (List.mem_cons_of_mem s hr) hin hout

end Leads

/-- **No stream is lost**: from every stream that is ready a way leads to one that is left, if
no stage is a dead end. -/
theorem runStages?_leads {meaning : FilterMeaning α β} {stages : List (Stage α)}
    {ready final : Ready β} (h : runStages? meaning stages ready = some final)
    (houtputs : ∀ s ∈ stages, s.outputs ≠ []) {l : Label} (hl : l ∈ ready.labels) :
    ∃ path m, m ∈ final.labels ∧ Leads stages l path m := by
  induction stages generalizing ready l with
  | nil =>
      obtain rfl := Option.some.inj h
      exact ⟨[], l, hl, .here⟩
  | cons s stages ih =>
      rw [runStages?_cons, Option.bind_eq_some_iff] at h
      obtain ⟨next, hnext, hrest⟩ := h
      have htail : ∀ r ∈ stages, r.outputs ≠ [] := fun r hr =>
        houtputs r (List.mem_cons_of_mem s hr)
      have hthere : l ∈ s.inputs ++ next.labels :=
        (Stage.run?_perm hnext).mem_iff.mpr (List.mem_append_left _ hl)
      -- What the first stage reads goes on in one of its outputs, all else waits for the others.
      by_cases hread : l ∈ s.inputs
      · obtain ⟨taken, others, made, -, -, hlength, rfl⟩ := Stage.run?_eq_some hnext
        obtain ⟨out, hout⟩ := List.exists_mem_of_ne_nil _ (houtputs s List.mem_cons_self)
        have hnew : out ∈ Ready.labels (others ++ s.outputs.zip made) := by
          rw [Ready.labels_append, Ready.labels_zip hlength]
          exact List.mem_append_right _ hout
        obtain ⟨path, m, hm, hway⟩ := ih hrest htail hnew
        exact ⟨s :: path, m, hm, hway.later.cons List.mem_cons_self hread hout⟩
      · have hkept := (List.mem_append.mp hthere).resolve_left hread
        obtain ⟨path, m, hm, hway⟩ := ih hrest htail hkept
        exact ⟨path, m, hm, hway.later⟩

/-! ## §3. Branches of terms. -/

namespace StreamTerm

/-- A branch of a term: the filters that a stream in it passes, the first one first. -/
inductive Branch (root : StreamTerm α) : List (Operation α) → StreamTerm α → Prop where
  | here : Branch root [] root
  | step {passed : List (Operation α)} {operation : Operation α} {inputs : List (StreamTerm α)}
      {t : StreamTerm α} :
      Branch root passed t → t ∈ inputs →
      Branch root (passed ++ [operation]) (.filtered operation inputs)

end StreamTerm

/-- The filters among the stages of a way: all but the splits. -/
def filtersOf (path : List (Stage α)) : List (Operation α) :=
  (path.map Stage.operation).filter fun o => o.kind ≠ "split"

theorem filtersOf_split {path : List (Stage α)} {s : Stage α} {n : Nat}
    (h : s.operation = .split n) : filtersOf (path ++ [s]) = filtersOf path := by
  unfold filtersOf
  rw [List.map_append, List.filter_append, List.map_singleton, h]
  exact List.append_nil _

theorem filtersOf_filter {path : List (Stage α)} {s : Stage α}
    (h : ∀ n, s.operation ≠ .split n) :
    filtersOf (path ++ [s]) = filtersOf path ++ [s.operation] := by
  have hkind : s.operation.kind ≠ "split" := by
    generalize s.operation = o at h
    cases o with
    | split n => exact absurd rfl (h n)
    | _ => simp [Operation.kind]
  unfold filtersOf
  rw [List.map_append, List.filter_append, List.map_singleton, List.filter_singleton]
  simp [hkind]

/-- **A way to a label is a branch of its term.** -/
theorem Leads.branch {stages : List (Stage α)} {ready final streams : Ready (StreamTerm α)}
    (hhistory : History StreamTerm.meaning stages ready final streams)
    (hnodup : streams.labels.Nodup) {l m : Label} {path : List (Stage α)}
    (hway : Leads stages l path m) {root t : StreamTerm α} (hroot : (l, root) ∈ streams)
    (ht : (m, t) ∈ streams) : StreamTerm.Branch root (filtersOf path) t := by
  -- On the way from its end: the last stage made the term, out of terms that it read.
  induction hway generalizing t with
  | here =>
      obtain rfl := stream_unique hnodup hroot ht
      exact .here
  | @step path s m n _ hs hin hout ih =>
      obtain ⟨taken, made, hmade, htaken, hwritten⟩ := hhistory.stage s hs
      obtain ⟨u, hu, humem⟩ := htaken m hin
      obtain ⟨v, hv, hvmem⟩ := hwritten n hout
      obtain rfl := stream_unique hnodup hvmem ht
      have hbranch := ih humem
      rcases StreamTerm.meaning_eq_some hmade with ⟨k, w, hsplit, rfl, rfl⟩ | ⟨hfilter, rfl⟩
      · -- A split hands its input on, so the branch gets no longer.
        obtain rfl := List.mem_singleton.mp hu
        obtain rfl := List.eq_of_mem_replicate hv
        rw [filtersOf_split hsplit]
        exact hbranch
      · obtain rfl := List.mem_singleton.mp hv
        rw [filtersOf_filter hfilter]
        exact .step hbranch hu

/-! ## §4. How often branches pass a filter. -/

namespace StreamTerm

/-- Every branch of the clip passes as many filters of a kind. -/
def Passes (kind : String) (n : Nat) (t : StreamTerm α) : Prop :=
  ∀ passed, Branch (.file 0) passed t → passed.countP (fun o => o.kind = kind) = n

variable {kind : String} {n : Nat} {operation : Operation α}

/-- The clip itself has passed nothing. -/
theorem passes_file : Passes kind 0 (.file 0 : StreamTerm α) := by
  intro passed h
  cases h with
  | here => rfl

theorem Passes.filtered {inputs : List (StreamTerm α)} (h : ∀ t ∈ inputs, t.Passes kind n) :
    Passes kind (n + if operation.kind = kind then 1 else 0) (.filtered operation inputs) := by
  intro passed hbranch
  cases hbranch with
  | step hbranch hmem =>
      rw [List.countP_append, h _ hmem _ hbranch, List.countP_singleton]
      simp

theorem Passes.unary {t : StreamTerm α} {m : Nat} (h : t.Passes kind n)
    (hm : n + (if operation.kind = kind then 1 else 0) = m) :
    Passes kind m (.filtered operation [t]) := by
  rw [← hm]
  refine .filtered fun u hu => ?_
  obtain rfl := List.mem_singleton.mp hu
  exact h

/-- Filters of another kind do not count. -/
theorem Passes.other {inputs : List (StreamTerm α)} (h : ∀ t ∈ inputs, t.Passes kind n)
    (hkind : operation.kind ≠ kind) : Passes kind n (.filtered operation inputs) := by
  have hpasses : Passes kind (n + if operation.kind = kind then 1 else 0)
      (.filtered operation inputs) := .filtered h
  rw [if_neg hkind] at hpasses
  exact hpasses

end StreamTerm

/-- The kinds of the filters that every segment starts with or ends in. -/
def cuttingKinds : List String := ["trim", "resample", "scale"]

namespace Specification

open StreamTerm

/-- The picture of a video: the video as it is, or framed. -/
def pictureOf [Scalar α] (s : Specification α) (video : StreamTerm α) : StreamTerm α :=
  if s.background.enabled then
    .filtered (.pad s.layout.frame s.layout.offsetX s.layout.offsetY s.background.color)
      [.filtered .alphaMerge
        [video, .filtered .alphaExtract [.filtered (.scale s.layout.video) [.file 1]]]]
  else video

/-- The GIF of a video. -/
def gifOf [Scalar α] (s : Specification α) (video : StreamTerm α) : StreamTerm α :=
  .filtered (.paletteUse s.exportSettings.dither)
    [s.pictureOf video, .filtered (.paletteGen s.exportSettings.colors) [s.pictureOf video]]

variable [Scalar α] (s : Specification α) {kind : String} {n : Nat}

theorem gifTerm_eq : s.gifTerm = s.gifOf s.videoTerm := rfl

/-- **A segment** is trimmed, resampled and scaled once. -/
theorem segmentTerm_passes (hkind : kind ∈ cuttingKinds) (segment : Segment α) :
    (s.segmentTerm segment).Passes kind 1 := by
  simp only [cuttingKinds, List.mem_cons, List.not_mem_nil, or_false] at hkind
  unfold segmentTerm
  cases segment.kind with
  | full =>
      rcases hkind with rfl | rfl | rfl
      all_goals exact .unary (.unary (.unary (.unary passes_file rfl) rfl) rfl) rfl
  | cropped =>
      cases s.crop with
      | none =>
          rcases hkind with rfl | rfl | rfl
          all_goals exact .unary (.unary (.unary (.unary passes_file rfl) rfl) rfl) rfl
      | some r =>
          rcases hkind with rfl | rfl | rfl
          all_goals exact .unary (.unary (.unary (.unary (.unary passes_file rfl) rfl) rfl) rfl) rfl

/-- **The video**: one segment, or several that are joined. -/
theorem videoTerm_passes (hkind : kind ∈ cuttingKinds) : s.videoTerm.Passes kind 1 := by
  have hsegments : ∀ t ∈ s.segments.map s.segmentTerm, t.Passes kind 1 := by
    intro t ht
    obtain ⟨segment, -, rfl⟩ := List.mem_map.mp ht
    exact s.segmentTerm_passes hkind segment
  unfold videoTerm
  split
  · rename_i only honly
    rw [honly] at hsegments
    exact hsegments only (List.mem_singleton_self only)
  · refine .other hsegments ?_
    show "concat" ≠ kind
    rintro rfl
    exact absurd hkind (by decide)

/-- **The picture and its palette** cut nothing more. -/
theorem gifOf_passes (hkind : kind ∈ cuttingKinds) {video : StreamTerm α}
    (hvideo : video.Passes kind n) : (s.gifOf video).Passes kind n := by
  have hother : ∀ name ∉ cuttingKinds, name ≠ kind := fun name hname h => hname (h ▸ hkind)
  -- No branch of the clip runs through the mask, which is another file.
  have hmask : Passes kind n
      (.filtered .alphaExtract [.filtered (.scale s.layout.video) [.file 1]] : StreamTerm α) := by
    intro passed h
    cases h with
    | step h hmem =>
        obtain rfl := List.mem_singleton.mp hmem
        cases h with
        | step h hmem =>
            obtain rfl := List.mem_singleton.mp hmem
            exact nomatch h
  have hpicture : (s.pictureOf video).Passes kind n := by
    unfold pictureOf
    split
    · have hmerged : Passes kind n (.filtered .alphaMerge
          [video, .filtered .alphaExtract [.filtered (.scale s.layout.video) [.file 1]]]) :=
        .other (by simp [hvideo, hmask]) (hother "mask-merge" (by decide))
      exact .other (by simp [hmerged]) (hother "pad" (by decide))
    · exact hvideo
  have hpalette : Passes kind n
      (.filtered (.paletteGen s.exportSettings.colors) [s.pictureOf video]) :=
    .other (by simp [hpicture]) (hother "palettegen" (by decide))
  exact .other (by simp [hpicture, hpalette]) (hother "paletteuse" (by decide))

/-! ## §5. A plan without segments. -/

/-- **Without a segment** the clip goes into the GIF as it is. -/
theorem terms?_of_nothing_kept (hnone : s.segments = []) :
    s.pipeline.terms? = some [(s.pipeline.output, s.gifOf (.file 0))] := by
  have hstages : s.pipeline.stages = s.frameStages .sourceVideo
      ++ paletteStages s.exportSettings.colors s.exportSettings.dither
          (s.frameLabel .sourceVideo) := by
    show s.stages s.segments = _
    rw [stages_eq, hnone]
    rfl
  have hframe : runStages? StreamTerm.meaning (s.frameStages .sourceVideo)
      ((.sourceVideo, .file 0) :: s.maskStream)
        = some [(s.frameLabel .sourceVideo, s.pictureOf (.file 0))] := by
    unfold frameStages frameLabel pictureOf maskStream
    cases s.background.enabled with
    | false => rfl
    | true =>
        simp only [if_true]
        unfold backdrop
        -- The video was ready before the mask, and stays in front of it.
        show runStages? StreamTerm.meaning _
          ([(Label.sourceVideo, .file 0)] ++ (Label.maskImage, .file 1) :: []) = _
        have hvideo : ∀ l, l ≠ Label.sourceVideo →
            l ∉ Ready.labels [(Label.sourceVideo, (.file 0 : StreamTerm α))] := fun l hl hmem =>
          hl (List.mem_singleton.mp hmem)
        rw [runStages?_unary _ (hvideo _ (by decide)) rfl, List.append_nil,
          runStages?_pipe (hvideo _ (by decide)) rfl]
        show runStages? StreamTerm.meaning _ [_, _] = _
        rw [runStages?_binary rfl]
        rfl
  have hinputs : s.pipeline.inputs = s.inputs := rfl
  unfold Pipeline.terms?
  rw [hstages, hinputs, fileStreams_eq, runStages?_append, hframe, Option.bind_some, run_palette]
  rfl

/-! ## §6. Ways through a plan. -/

end Specification

/-- A way from the clip to what is written. -/
def Pipeline.Way (p : Pipeline α) (path : List (Stage α)) : Prop :=
  Leads p.stages .sourceVideo path p.output

/-- How many stages of a way are of a kind. -/
def stagesOfKind (kind : String) (path : List (Stage α)) : Nat :=
  path.countP fun s => s.operation.kind = kind

/-- Splits apart, the stages of a way are counted on its branch. -/
theorem countP_filtersOf {kind : String} (hkind : kind ≠ "split") (path : List (Stage α)) :
    (filtersOf path).countP (fun o => o.kind = kind) = stagesOfKind kind path := by
  unfold filtersOf stagesOfKind
  rw [List.countP_filter, List.countP_map]
  refine List.countP_congr fun s _ => ?_
  simp only [Function.comp, Bool.and_eq_true, decide_eq_true_eq]
  exact ⟨And.left, fun h => ⟨h, h ▸ hkind⟩⟩

namespace Specification

variable [Scalar α] (s : Specification α)

/-- The GIF that a plan makes: with a segment or without, each branch of the clip is cut as
often. -/
theorem exists_gif : ∃ t, s.pipeline.terms? = some [(s.pipeline.output, t)]
    ∧ ∀ kind ∈ cuttingKinds, t.Passes kind (if s.pipeline.segments = [] then 0 else 1) := by
  show ∃ t : StreamTerm α, _ ∧
    ∀ kind ∈ cuttingKinds, t.Passes kind (if s.segments = [] then 0 else 1)
  by_cases hkept : s.segments = []
  · refine ⟨_, s.terms?_of_nothing_kept hkept, fun kind hkind => ?_⟩
    rw [if_pos hkept]
    exact s.gifOf_passes hkind StreamTerm.passes_file
  · refine ⟨_, s.terms?_pipeline hkept, fun kind hkind => ?_⟩
    rw [if_neg hkept, gifTerm_eq]
    exact s.gifOf_passes hkind (s.videoTerm_passes hkind)

/-- **Ways through a plan**: there is one, and all pass the cutting filters as often. -/
theorem ways_of_pipeline : (∃ path, s.pipeline.Way path)
    ∧ ∀ path, s.pipeline.Way path → ∀ kind ∈ cuttingKinds,
        stagesOfKind kind path = if s.pipeline.segments = [] then 0 else 1 := by
  obtain ⟨t, hrun, hpasses⟩ := s.exists_gif
  have hclip : (Label.sourceVideo, (.file 0 : StreamTerm α)) ∈
      fileStreams ((List.range s.pipeline.inputs.length).map StreamTerm.file) := by
    show _ ∈ fileStreams ((List.range s.inputs.length).map StreamTerm.file)
    rw [fileStreams_eq]
    exact List.mem_cons_self
  constructor
  · -- The output is all that a plan leaves, so it is where the clip ends up.
    obtain ⟨path, m, hm, hway⟩ := runStages?_leads hrun s.outputs_ne_nil
      (List.mem_map_of_mem hclip)
    obtain rfl := List.mem_singleton.mp hm
    exact ⟨path, hway⟩
  · -- A way and a branch of the term pass the same filters, and those of terms are counted.
    intro path hway kind hkind
    obtain ⟨streams, hhistory⟩ := exists_history hrun
    have hlabels := hhistory.labels
    rw [Pipeline.labels_fileStreams, List.length_map, List.length_range] at hlabels
    have hnodup : streams.labels.Nodup := hlabels.nodup_iff.mpr (s.produced_nodup s.segments)
    have hbranch := hway.branch hhistory hnodup (hhistory.first hclip)
      (hhistory.last (List.mem_singleton_self _))
    rw [← countP_filtersOf (ne_of_mem_of_not_mem hkind (by decide))]
    exact hpasses kind hkind _ hbranch

/-! ## §7. Which edits keep a segment. -/

/-- An edit without a zoom is kept if its trim is longer than the shortest segment. -/
theorem segments_eq_nil_iff (hzoom : s.zoom.start = none) :
    s.segments = [] ↔ ¬ minSegment < s.trim.duration := by
  have hstretches : s.stretches.2 = [⟨.full, s.trim.start, s.trim.stop⟩] := by
    unfold stretches
    rw [hzoom]
    cases s.crop with
    | none => rfl
    | some r => rfl
  unfold segments
  rw [hstretches]
  rw [List.filter_eq_nil_iff, List.forall_mem_singleton, decide_eq_true_eq]
  rfl

/-- A trim longer than two of the shortest segments keeps one, wherever it is cut. -/
theorem segments_ne_nil {s : Specification Exact} (h : s.Accepted)
    (hlong : 2e-6 < s.trim.duration) : s.segments ≠ [] := by
  obtain ⟨a, b, hstart, hstop, -, hab⟩ := TrimRange.exists_of_isValid h.trim
  have htrim : s.trim = ⟨.rational a, .rational b⟩ := by rw [← hstart, ← hstop]
  obtain ⟨x, y, hx, hy, htiles⟩ := tiles_of_cut hab (cut_stretches htrim h)
  intro hnone
  have hsegments : keptSegments s.stretches.2 = [] := hnone
  rw [hsegments] at htiles
  -- Nothing tiles a stretch without length only, and each end is off by a millionth.
  cases htiles with
  | nil =>
      obtain ⟨-, hxa⟩ := abs_le.mp hx
      obtain ⟨hyb, -⟩ := abs_le.mp hy
      unfold TrimRange.duration at hlong
      rw [hstart, hstop, Exact.rational_sub, Exact.fraction_eq, Exact.rational_lt] at hlong
      norm_num at hlong hxa hyb
      linarith

/-- **EVERY WAY THROUGH A PLAN CUTS THE CLIP ONCE, IF ANYTHING IS KEPT**, whatever numbers its
times are: from the clip to the output there is a way, and all ways pass one trim, one
resampling and one scaling if the pipeline has a segment, and none of them if it has none.
Without a zoom it has one exactly if the trim is longer than the shortest segment.  With exact
numbers an accepted edit has one if its trim is longer than two of the shortest segments. -/
theorem ways_cut_once_iff_kept (s : Specification α) :
    (∃ path, s.pipeline.Way path)
      ∧ (∀ path, s.pipeline.Way path → ∀ kind ∈ cuttingKinds,
          stagesOfKind kind path = if s.pipeline.segments = [] then 0 else 1)
      ∧ (s.zoom.start = none → (s.pipeline.segments = [] ↔ ¬ minSegment < s.trim.duration))
      ∧ ∀ edit : Specification Exact, edit.Accepted → 2e-6 < edit.trim.duration →
          edit.pipeline.segments ≠ [] := by
  obtain ⟨hway, hways⟩ := s.ways_of_pipeline
  exact ⟨hway, hways, s.segments_eq_nil_iff, fun _ => segments_ne_nil⟩

/-- Three segments, a crop and a backdrop. -/
theorem ways_cut_once_iff_kept_framed :
    let source : Clip Exact := ⟨"clip.mp4", 10, 640, 360⟩
    let crop : Option Region := some ⟨0, 0, 320, 180⟩
    let background : Background Exact := ⟨true, ⟨41, 41, 41⟩, 0.1, 16⟩
    let s : Specification Exact :=
      ⟨source, ⟨0, 10⟩, crop, ⟨some 2, some 6⟩, .standard, background⟩
    ofParts source ⟨0, 10⟩ crop ⟨some 2, some 6⟩ .standard background = .ok s
      ∧ (∃ path, s.pipeline.Way path)
      ∧ ∀ path, s.pipeline.Way path → ∀ kind ∈ cuttingKinds, stagesOfKind kind path = 1 := by
  intro source crop background s
  have hs : ofParts source ⟨0, 10⟩ crop ⟨some 2, some 6⟩ .standard background = .ok s := by
    decide +kernel
  obtain ⟨hway, hways, -, hkept⟩ := ways_cut_once_iff_kept s
  refine ⟨hs, hway, fun path hpath kind hkind => ?_⟩
  rw [hways path hpath kind hkind, if_neg (hkept s (accepted_of_ofParts hs) (by decide +kernel))]

/-- **An accepted edit may keep nothing**: its trim is half a millionth of a second long, and
the clip goes into the GIF untrimmed, at its own rate and size. -/
theorem short_trim_keeps_nothing :
    let source : Clip Exact := ⟨"clip.mp4", 10, 1920, 1080⟩
    let s : Specification Exact := ⟨source, ⟨0, 5e-7⟩, none, .none, .standard, .standard⟩
    ofParts source ⟨0, 5e-7⟩ none .none .standard .standard = .ok s
      ∧ s.pipeline.segments = []
      ∧ ∃ path, s.pipeline.Way path ∧ path.map (fun s => s.operation.kind) = ["split", "paletteuse"]
      := by
  intro source s
  have hs : ofParts source ⟨0, 5e-7⟩ none .none .standard .standard = .ok s := by decide +kernel
  have hsegments : s.pipeline.segments = [] := by decide +kernel
  have hstages : s.pipeline.stages = paletteStages 256 5 .sourceVideo := by
    show s.stages s.pipeline.segments = _
    rw [hsegments]
    rfl
  refine ⟨hs, hsegments, [⟨"palette split", .split 2, [.sourceVideo],
    [.paletteSource, .paletteFrames]⟩, ⟨"palette apply", .paletteUse 5,
      [.paletteFrames, .palette], [.output]⟩], ?_, rfl⟩
  unfold Pipeline.Way
  rw [hstages]
  have hsplit : Leads (paletteStages 256 5 .sourceVideo : List (Stage Exact)) .sourceVideo
      [⟨"palette split", .split 2, [.sourceVideo], [.paletteSource, .paletteFrames]⟩]
      .paletteFrames :=
    .step .here List.mem_cons_self List.mem_cons_self (by decide)
  exact .step hsplit (by decide) List.mem_cons_self List.mem_cons_self

end Specification
end GifEdit
