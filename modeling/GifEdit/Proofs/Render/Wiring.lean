/-
  GifEdit.Proofs.Render.Wiring
  ────────────────────────────
  **THE GRAPH OF A PLAN IS WELL WIRED.**

  What the encoder is given is a list of stages and a list of files.  The graph is
  accepted and means one thing if

      every label is written once and read once, after it was written,
      what no stage writes is the video of a file that is given,
      and the counts of splits and joins are those of their labels.

  A pipeline that runs, and writes no label twice, is wired like this
  (`wellWired_of_terms?`); the plan of an edit runs.

  Main result: `pipeline_refines_edit`, for every edit that keeps a segment.
-/
import GifEdit.Proofs.Render.Planner
import GifEdit.Scalar.Exact

namespace GifEdit

variable {α : Type}

/-! ## §1. Wiring. -/

theorem StreamTerm.length_of_split {n : Nat} {taken made : List (StreamTerm α)}
    (h : StreamTerm.meaning (.split n) taken = some made) : made.length = n := by
  match taken, h with
  | [t], h =>
      obtain rfl := Option.some.inj h
      exact List.length_replicate

theorem StreamTerm.length_of_concat {n : Nat} {taken made : List (StreamTerm α)}
    (h : StreamTerm.meaning (.concat n) taken = some made) : taken.length = n := by
  by_contra hlength
  have hnone : StreamTerm.meaning (.concat n) taken = none := if_neg hlength
  rw [hnone] at h
  exact nomatch h

namespace Pipeline

/-- The labels that stages write, in order. -/
def produced (p : Pipeline α) : List Label := p.stages.flatMap Stage.outputs

/-- The labels that stages read, in order. -/
def consumed (p : Pipeline α) : List Label := p.stages.flatMap Stage.inputs

/-- The labels that are read and that no stage writes. -/
def externals (p : Pipeline α) : List Label := p.consumed.filter (· ∉ p.produced)

/-- A graph in which every stream goes from one stage to one later stage. -/
structure WellWired (p : Pipeline α) : Prop where
  names : (p.stages.map Stage.name).Nodup
  written_once : p.produced.Nodup
  read_once : ∀ l ∈ p.externals ++ p.produced, l ≠ p.output → p.consumed.count l = 1
  output_written : p.output ∈ p.produced
  output_unread : p.output ∉ p.consumed
  in_order : ∀ before stage after, p.stages = before ++ stage :: after →
    ∀ l ∈ stage.inputs, l ∈ p.externals ∨ l ∈ before.flatMap Stage.outputs
  splits : ∀ stage ∈ p.stages, ∀ n, stage.operation = .split n → stage.outputs.length = n
  concats : ∀ stage ∈ p.stages, ∀ n, stage.operation = .concat n → stage.inputs.length = n

theorem labels_fileStreams {β : Type} (files : List β) :
    (fileStreams files).labels = (List.range files.length).map Label.ofFile := by
  unfold fileStreams Ready.labels
  apply List.ext_getElem
  · simp
  · intro i hi hi'
    simp

variable {p : Pipeline α} {t : StreamTerm α}

/-- The account of a pipeline that leaves its output and nothing else. -/
theorem consumed_perm (hrun : p.terms? = some [(p.output, t)]) :
    (p.consumed ++ [p.output]).Perm (p.fileLabels ++ p.produced) := by
  have hperm := runStages?_perm hrun
  rw [labels_fileStreams, List.length_map, List.length_range] at hperm
  exact hperm

/-- **What runs is well wired**, if no label is written twice. -/
theorem wellWired_of_terms? (hrun : p.terms? = some [(p.output, t)])
    (hnames : (p.stages.map Stage.name).Nodup) (hlabels : (p.fileLabels ++ p.produced).Nodup)
    (houtput : p.output ∉ p.fileLabels) :
    p.WellWired ∧ p.externals.Perm p.fileLabels := by
  have hperm := consumed_perm hrun
  obtain ⟨-, hproduced, hdisjoint⟩ := List.nodup_append'.mp hlabels
  obtain ⟨hconsumed, -, hunread⟩ := List.nodup_append'.mp (hperm.nodup_iff.mpr hlabels)
  have hwritten : p.output ∈ p.produced := by
    have hmem := hperm.mem_iff.mp (List.mem_append_right _ (List.mem_singleton_self p.output))
    exact (List.mem_append.mp hmem).resolve_left houtput
  -- Without what is produced, the account is one of the files alone.
  have hexternals : p.externals.Perm p.fileLabels := by
    have hfilter := hperm.filter fun l => decide (l ∉ p.produced)
    rw [List.filter_append, List.filter_append] at hfilter
    have hfiles : p.fileLabels.filter (fun l => decide (l ∉ p.produced)) = p.fileLabels := by
      rw [List.filter_eq_self]
      intro l hl
      exact decide_eq_true fun hmem => hdisjoint hl hmem
    have hnone : p.produced.filter (fun l => decide (l ∉ p.produced)) = [] := by
      rw [List.filter_eq_nil_iff]
      intro l hl
      simp [hl]
    have hout : [p.output].filter (fun l => decide (l ∉ p.produced)) = [] := by
      simp [hwritten]
    rw [hfiles, hnone, hout, List.append_nil, List.append_nil] at hfilter
    exact hfilter
  refine ⟨⟨hnames, hproduced, ?_, hwritten, ?_, ?_, ?_, ?_⟩, hexternals⟩
  · -- Every label but the output is on the left of the account, and there is none twice.
    intro l hl hne
    have hmem : l ∈ p.fileLabels ++ p.produced := by
      rcases List.mem_append.mp hl with hl | hl
      · exact List.mem_append_left _ (hexternals.mem_iff.mp hl)
      · exact List.mem_append_right _ hl
    have hread := List.mem_append.mp (hperm.mem_iff.mpr hmem)
    refine List.count_eq_one_of_mem hconsumed (hread.resolve_right ?_)
    exact fun hlast => hne (List.mem_singleton.mp hlast)
  · exact fun hmem => hunread hmem (List.mem_singleton_self p.output)
  · intro before stage after hstages l hl
    unfold terms? at hrun
    rw [hstages] at hrun
    have hthere := runStages?_inputs hrun l hl
    rw [labels_fileStreams, List.length_map, List.length_range] at hthere
    rcases List.mem_append.mp hthere with hfile | hbefore
    · exact .inl (hexternals.mem_iff.mpr hfile)
    · exact .inr hbefore
  · -- A split that ran made as many streams as it counts, and one for each label.
    intro stage hstage n hoperation
    obtain ⟨taken, made, hmade, -, hlength⟩ := runStages?_arity hrun stage hstage
    rw [hoperation] at hmade
    rw [← hlength]
    exact StreamTerm.length_of_split hmade
  · intro stage hstage n hoperation
    obtain ⟨taken, made, hmade, hlength, -⟩ := runStages?_arity hrun stage hstage
    rw [hoperation] at hmade
    rw [← hlength]
    exact StreamTerm.length_of_concat hmade

end Pipeline

/-! ## §2. The files among the arguments. -/

/-- The files among the arguments of the encoder, in their order: each is the value of an
`-i`.  Other options that have a value are skipped with it. -/
def inputFiles : List String → List String
  | option :: value :: rest =>
      if option = "-i" then value :: inputFiles rest
      else if option ∈ ["-filter_complex", "-map", "-loop"] then inputFiles rest
      else inputFiles (value :: rest)
  | _ => []

theorem inputFiles_file (file : String) (rest : List String) :
    inputFiles ("-i" :: file :: rest) = file :: inputFiles rest := by
  rw [inputFiles, if_pos rfl]

theorem inputFiles_option {option : String} (value : String) (rest : List String)
    (h : option ≠ "-i") (hvalue : option ∈ ["-filter_complex", "-map", "-loop"]) :
    inputFiles (option :: value :: rest) = inputFiles rest := by
  rw [inputFiles, if_neg h, if_pos hvalue]

theorem inputFiles_flag {flag : String} (rest : List String) (h : flag ≠ "-i")
    (hvalue : flag ∉ ["-filter_complex", "-map", "-loop"]) :
    inputFiles (flag :: rest) = inputFiles rest := by
  cases rest with
  | nil => rfl
  | cons next rest => rw [inputFiles, if_neg h, if_neg hvalue]

theorem inputFiles_flatMap (files : List Path) (rest : List String) :
    inputFiles (files.flatMap (fun file => ["-i", file.text]) ++ rest)
      = files.map Path.text ++ inputFiles rest := by
  induction files with
  | nil => rfl
  | cons file files ih =>
      rw [List.flatMap_cons, List.append_assoc]
      show inputFiles ("-i" :: file.text :: _) = _
      rw [inputFiles_file]
      show file.text :: inputFiles (_ ++ rest) = _
      rw [ih]
      rfl

/-- The encoder is given the files of the inputs, in their order. -/
theorem Pipeline.inputFiles_arguments [Scalar α] (p : Pipeline α) (source : Path)
    (mask : Option Path) (output : Path) :
    inputFiles (p.arguments source mask output)
      = (p.inputs.filterMap (inputPath source mask)).map Path.text := by
  have hend : inputFiles ["-filter_complex", p.graphText, "-map", p.output.text, "-loop",
      toString p.loopCount.count, output.text] = [] := by
    rw [inputFiles_option _ _ (by decide) (by decide), inputFiles_option _ _ (by decide) (by decide),
      inputFiles_option _ _ (by decide) (by decide)]
    rfl
  unfold arguments
  rw [List.append_assoc]
  show inputFiles ("-y" :: "-hide_banner" :: _) = _
  rw [inputFiles_flag _ (by decide) (by decide), inputFiles_flag _ (by decide) (by decide)]
  show inputFiles (List.flatMap _ _ ++ _) = _
  rw [inputFiles_flatMap, hend, List.append_nil]

namespace Specification

variable [Scalar α] (s : Specification α)

/-- **A PLAN REFINES ITS EDIT**: run on the files, the stages of an edit that keeps a segment
leave the picture that the edit asks for and nothing else; they are well wired; and what no
stage writes are the files that the encoder is given, the mask among them exactly with a
backdrop. -/
theorem pipeline_refines_edit (hkept : s.pipeline.segments ≠ []) :
    s.pipeline.terms? = some [(s.pipeline.output, s.gifTerm)]
      ∧ s.pipeline.WellWired
      ∧ ∀ (source output : Path) (mask : Option Path),
          (s.pipeline.mask?.isSome = true → mask.isSome = true) →
          let files := inputFiles (s.pipeline.arguments source mask output)
          files = source.text :: (if s.background.enabled then mask.toList.map Path.text else [])
            ∧ s.pipeline.externals.Perm
                (.sourceVideo :: if s.background.enabled then [.maskImage] else [])
            ∧ s.pipeline.externals.Perm ((List.range files.length).map Label.ofFile) := by
  have hrun := s.terms?_pipeline hkept
  have houtput : s.pipeline.output ∉ s.pipeline.fileLabels := by
    rw [fileLabels_eq]
    show Label.output ∉ _
    cases s.background.enabled <;> decide
  obtain ⟨hwired, hexternals⟩ := Pipeline.wellWired_of_terms? hrun (s.names_nodup s.segments)
    (s.produced_nodup s.segments) houtput
  refine ⟨hrun, hwired, ?_⟩
  intro source output mask hmask files
  have hfiles : files = source.text ::
      (if s.background.enabled then mask.toList.map Path.text else []) := by
    show inputFiles _ = _
    rw [Pipeline.inputFiles_arguments]
    show (s.inputs.filterMap _).map _ = _
    unfold inputs
    cases s.background.enabled with
    | false => rfl
    | true => cases mask <;> rfl
  -- Without its path a mask would be missing from the files and shift their numbers.
  have hlength : files.length = s.pipeline.inputs.length := by
    rw [hfiles]
    revert hmask
    unfold Pipeline.mask? pipeline inputs
    cases s.background.enabled with
    | false => exact fun _ => rfl
    | true =>
        intro hmask
        obtain ⟨path, rfl⟩ := Option.isSome_iff_exists.mp (hmask rfl)
        rfl
  refine ⟨hfiles, ?_, ?_⟩
  · rw [← fileLabels_eq]
    exact hexternals
  · rw [hlength]
    exact hexternals

/-- Three segments, a crop and a backdrop: all parts of a plan. -/
theorem pipeline_refines_edit_framed :
    let s : Specification Exact :=
      ⟨⟨"clip.mp4", 10, 640, 360⟩, ⟨0, 10⟩, some ⟨0, 0, 320, 180⟩, ⟨some 2, some 6⟩, .standard,
        ⟨true, ⟨41, 41, 41⟩, 0.1, 16⟩⟩
    s.pipeline.segments.length = 3 ∧ s.pipeline.stages.length = 22
      ∧ s.pipeline.terms? = some [(s.pipeline.output, s.gifTerm)] ∧ s.pipeline.WellWired
      ∧ inputFiles (s.pipeline.arguments ⟨"clip.mp4"⟩ (some ⟨"mask.png"⟩) ⟨"clip.gif"⟩)
        = ["clip.mp4", "mask.png"] := by
  intro s
  have hsegments : s.pipeline.segments.length = 3 := by decide +kernel
  have hstages : s.pipeline.stages.length = 22 := by decide +kernel
  have hkept : s.pipeline.segments ≠ [] := by
    rw [← List.length_pos_iff, hsegments]
    decide
  obtain ⟨hterms, hwired, hfiles⟩ := pipeline_refines_edit s hkept
  exact ⟨hsegments, hstages, hterms, hwired,
    (hfiles ⟨"clip.mp4"⟩ ⟨"clip.gif"⟩ (some ⟨"mask.png"⟩) fun _ => rfl).1⟩

end Specification
end GifEdit
