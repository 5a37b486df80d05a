/-
  GifEdit.Proofs.Render.Planner
  ─────────────────────────────
  **A PLAN COMPUTES THE PICTURE THAT THE EDIT ASKS FOR.**

  The stages are run from the files on, with the filters as symbols.  What is ready
  between two parts of a plan:

      1:v?   in0 in1 … in⟨n-1⟩                 after the source is fanned out
      1:v?   in⟨k⟩ … in⟨n-1⟩   s0 … s⟨k-1⟩      after k segments
      1:v?   the video                         after they are joined
      the picture                              after it is framed
      the GIF

  The loop over the segments goes by induction; every other part is a few stages.
-/
import GifEdit.Proofs.Render.Dataflow
import GifEdit.Proofs.Render.Labels

namespace GifEdit

variable {α : Type}

/-! ## §1. Segments. -/

/-- Branches of the source, `n` of them from number `k` on. -/
def Ready.branches (k n : Nat) : Ready (StreamTerm α) :=
  (List.range' k n).map fun i => (.branch i, .file 0)

/-- The branches are copies of the source under their labels. -/
theorem Ready.branches_eq_zip (n : Nat) : (Ready.branches 0 n : Ready (StreamTerm α))
    = ((List.range n).map Label.branch).zip (List.replicate n (.file 0)) := by
  unfold branches
  apply List.ext_getElem
  · simp
  · intro i hi hi'
    simp

/-- All of them begin with the letter of branches. -/
theorem Ready.initial_of_mem_branches {k n : Nat} {l : Label}
    (h : l ∈ (Ready.branches k n : Ready (StreamTerm α)).labels) : l.initial = some 'i' := by
  unfold labels branches at h
  rw [List.map_map] at h
  obtain ⟨i, -, rfl⟩ := List.mem_map.mp h
  exact Label.initial_branch i

/-- A stretch of the clip, from time zero and at the frame rate, before it is cropped. -/
theorem runStages?_timed {a b c : String} {i : Nat} {source : Label} {segment : Segment α} {fps : Nat}
    {front back : Ready (StreamTerm α)} (stages : List (Stage α)) (hsource : source ∉ front.labels)
    (hparts : ∀ part, Label.segmentPart i part ∉ (front ++ back : Ready (StreamTerm α)).labels) :
    runStages? StreamTerm.meaning
        (⟨a, .trim segment.start segment.stop, [source], [.segmentPart i "trim"]⟩
          :: ⟨b, .resetTimestamps, [.segmentPart i "trim"], [.segmentPart i "pts"]⟩
          :: ⟨c, .fps fps, [.segmentPart i "pts"], [.segmentPart i "fps"]⟩ :: stages)
        (front ++ (source, .file 0) :: back)
      = runStages? StreamTerm.meaning stages (front ++ back ++ [(.segmentPart i "fps",
          .filtered (.fps fps) [.filtered .resetTimestamps
            [.filtered (.trim segment.start segment.stop) [.file 0]]])]) := by
  rw [runStages?_unary front hsource rfl, runStages?_pipe (hparts _) rfl,
    runStages?_pipe (hparts _) rfl]

namespace Specification

variable (s : Specification α)

/-- The mask, if the edit reads one. -/
def maskStream : Ready (StreamTerm α) :=
  if s.background.enabled then [(.maskImage, .file 1)] else []

theorem maskStream_labels : ∀ l ∈ s.maskStream.labels, l = .maskImage := by
  unfold maskStream
  cases s.background.enabled with
  | false => exact fun _ hl => nomatch hl
  | true => exact fun _ hl => List.mem_singleton.mp hl

variable [Scalar α]

/-- **One segment**: its stream is taken from where it stands, and finished at the end. -/
theorem run_segment (i : Nat) (source : Label) (segment : Segment α)
    (front back : Ready (StreamTerm α)) (hsource : source ∉ front.labels)
    (hparts : ∀ part, Label.segmentPart i part ∉ (front ++ back : Ready (StreamTerm α)).labels) :
    runStages? StreamTerm.meaning
        (segmentStages s.crop s.exportSettings.fps s.layout.video i source segment)
        (front ++ (source, .file 0) :: back)
      = some (front ++ back ++ [(.segment i, s.segmentTerm segment)]) := by
  unfold segmentStages segmentTerm
  -- Only a cropped segment of an edit with a crop has a stage more.
  cases segment.kind with
  | full =>
      dsimp only [List.cons_append, List.nil_append]
      rw [runStages?_timed _ hsource hparts, runStages?_pipe (hparts _) rfl]
      rfl
  | cropped =>
      cases s.crop with
      | none =>
          dsimp only [List.cons_append, List.nil_append]
          rw [runStages?_timed _ hsource hparts, runStages?_pipe (hparts _) rfl]
          rfl
      | some r =>
          dsimp only [List.cons_append, List.nil_append]
          rw [runStages?_timed _ hsource hparts, runStages?_pipe (hparts _) rfl,
            runStages?_pipe (hparts _) rfl]
          rfl

/-- The finished streams of segments that are numbered from `k` on. -/
def finished (segments : List (Segment α)) (k : Nat) : Ready (StreamTerm α) :=
  (segments.zipIdx k).map fun (segment, i) => (.segment i, s.segmentTerm segment)

/-- **The loop over the segments** turns branches into finished streams. -/
theorem run_branches {front : Ready (StreamTerm α)} (hfront : ∀ l ∈ front.labels, l ∈ Label.fixed)
    (segments : List (Segment α)) :
    ∀ (k : Nat) (ready : Ready (StreamTerm α)), (∀ l ∈ ready.labels, ∃ j, l = .segment j) →
      runStages? StreamTerm.meaning
          ((segments.zipIdx k).flatMap fun (segment, i) =>
            segmentStages s.crop s.exportSettings.fps s.layout.video i (.branch i) segment)
          (front ++ (Ready.branches k segments.length ++ ready))
        = some (front ++ (ready ++ s.finished segments k)) := by
  -- On the segments, for every number and all that is finished: each turn takes the branch
  -- in front, and what it makes goes to the end.
  induction segments with
  | nil =>
      intro k ready _
      show some (front ++ ([] ++ ready)) = some (front ++ (ready ++ []))
      rw [List.nil_append, List.append_nil]
  | cons segment segments ih =>
      intro k ready hready
      have hsource : Label.branch k ∉ front.labels := fun hmem =>
        (Label.initial_of_mem_fixed (hfront _ hmem)).1 (Label.initial_branch k)
      have hparts : ∀ part, Label.segmentPart k part ∉ (front ++
          (Ready.branches (k + 1) segments.length ++ ready) : Ready (StreamTerm α)).labels := by
        intro part hmem
        rw [Ready.labels_append, Ready.labels_append, List.mem_append, List.mem_append] at hmem
        have hinitial := Label.initial_segmentPart k part
        rcases hmem with hmem | hmem | hmem
        · exact (Label.initial_of_mem_fixed (hfront _ hmem)).2 hinitial
        · rw [Ready.initial_of_mem_branches hmem] at hinitial
          exact absurd hinitial (by decide)
        · obtain ⟨j, hj⟩ := hready _ hmem
          exact Label.segment_ne_segmentPart j k part hj.symm
      have hready' : ∀ l ∈ (ready ++ [(.segment k, s.segmentTerm segment)] :
          Ready (StreamTerm α)).labels, ∃ j, l = .segment j := by
        intro l hl
        rw [Ready.labels_append, List.mem_append] at hl
        rcases hl with hl | hl
        · exact hready l hl
        · exact ⟨k, List.mem_singleton.mp hl⟩
      have hrest := ih (k + 1) (ready ++ [(.segment k, s.segmentTerm segment)]) hready'
      rw [List.zipIdx_cons, List.flatMap_cons, runStages?_append]
      show (runStages? StreamTerm.meaning (segmentStages _ _ _ _ _ _)
        (front ++ (.branch k, .file 0) :: (Ready.branches (k + 1) segments.length ++ ready))).bind _
          = _
      rw [s.run_segment k _ segment front _ hsource hparts, Option.bind_some]
      rw [List.append_assoc, List.append_assoc, hrest, List.append_assoc]
      rfl

/-! ## §2. The video. -/

/-- The streams of the files: the source, and the mask if there is one. -/
theorem fileStreams_eq : fileStreams ((List.range s.inputs.length).map StreamTerm.file)
    = (.sourceVideo, .file 0) :: s.maskStream := by
  unfold inputs maskStream
  cases s.background.enabled with
  | false => exact congrArg (fun l => [(l, StreamTerm.file 0)]) ofFile_zero
  | true =>
      exact congrArg₂ (fun l m => [(l, StreamTerm.file 0), (m, StreamTerm.file 1)])
        ofFile_zero ofFile_one

/-- Finished streams, as a join takes them. -/
theorem finished_eq_zip (segments : List (Segment α)) :
    s.finished segments 0
      = ((List.range segments.length).map Label.segment).zip (segments.map s.segmentTerm) := by
  unfold finished
  apply List.ext_getElem
  · simp
  · intro i hi hi'
    simp

/-- A single segment is the video. -/
theorem run_single {segment : Segment α} (h : s.segments = [segment]) :
    runStages? StreamTerm.meaning (fanOut 1 ++ s.cutStages [segment] ++ join 1)
        ((.sourceVideo, .file 0) :: s.maskStream)
      = some (s.maskStream ++ [(joinedLabel 1, s.videoTerm)]) := by
  have hparts : ∀ part, Label.segmentPart 0 part ∉ s.maskStream.labels := by
    intro part hmem
    have hinitial := Label.initial_segmentPart 0 part
    rw [s.maskStream_labels _ hmem] at hinitial
    exact absurd hinitial (by decide)
  -- There is nothing to fan out or to join, and the segment reads the file itself.
  have hstages : fanOut 1 ++ s.cutStages [segment] ++ join 1
      = segmentStages s.crop s.exportSettings.fps s.layout.video 0 .sourceVideo segment := by
    show [] ++ (_ ++ []) ++ [] = _
    rw [List.nil_append, List.append_nil, List.append_nil]
    rfl
  have hvideo : s.videoTerm = s.segmentTerm segment := by
    unfold videoTerm
    rw [h]
    rfl
  rw [hstages, hvideo]
  exact s.run_segment 0 .sourceVideo segment [] s.maskStream (fun hmem => nomatch hmem) hparts

/-- Several segments are joined to the video. -/
theorem run_several (hlength : 1 < s.segments.length) :
    runStages? StreamTerm.meaning
        (fanOut s.segments.length ++ s.cutStages s.segments ++ join s.segments.length)
        ((.sourceVideo, .file 0) :: s.maskStream)
      = some (s.maskStream ++ [(joinedLabel s.segments.length, s.videoTerm)]) := by
  have hfan : runStages? StreamTerm.meaning (fanOut s.segments.length : List (Stage α))
      ((.sourceVideo, .file 0) :: s.maskStream)
        = some (s.maskStream ++ Ready.branches 0 s.segments.length) := by
    unfold fanOut
    rw [if_pos hlength, runStages?_singleton, Ready.branches_eq_zip]
    exact Stage.run?_one [] _ (fun hmem => nomatch hmem) rfl (by simp)
  have hcut : runStages? StreamTerm.meaning (s.cutStages s.segments)
      (s.maskStream ++ Ready.branches 0 s.segments.length)
        = some (s.maskStream ++ s.finished s.segments 0) := by
    have hfront : ∀ l ∈ s.maskStream.labels, l ∈ Label.fixed := by
      intro l hl
      rw [s.maskStream_labels l hl]
      decide
    -- Nothing is finished before the loop, and no branch is left after it.
    have hloop := s.run_branches hfront s.segments 0 [] (fun l hl => nomatch hl)
    rw [List.append_nil, List.nil_append] at hloop
    unfold cutStages segmentSource
    simp only [hlength, if_true]
    exact hloop
  have hvideo : s.videoTerm = .filtered (.concat s.segments.length)
      (s.segments.map s.segmentTerm) := by
    unfold videoTerm
    obtain ⟨first, rest, hfirst⟩ := List.exists_cons_of_length_pos (Nat.zero_lt_of_lt hlength)
    rw [hfirst] at hlength ⊢
    obtain ⟨second, rest, rfl⟩ := List.exists_cons_of_length_pos (Nat.lt_of_succ_lt_succ hlength)
    simp only [List.map_cons, List.length_cons, List.length_map]
  have hjoin : runStages? StreamTerm.meaning (join s.segments.length : List (Stage α))
      (s.maskStream ++ s.finished s.segments 0)
        = some (s.maskStream ++ [(joinedLabel s.segments.length, s.videoTerm)]) := by
    unfold join joinedLabel
    rw [if_pos hlength, if_pos hlength, runStages?_singleton, finished_eq_zip, hvideo]
    refine Stage.run?_zip [_] (by simp) ?_ ?_ rfl
    · intro l hl hmask
      obtain ⟨i, -, rfl⟩ := List.mem_map.mp hl
      have hinitial := Label.initial_segment i
      rw [s.maskStream_labels _ hmask] at hinitial
      exact absurd hinitial (by decide)
    · exact if_pos (by simp)
  rw [runStages?_append, runStages?_append, hfan, Option.bind_some, hcut, Option.bind_some, hjoin]

/-- **The video**, from one segment or from several. -/
theorem run_video (hkept : s.segments ≠ []) :
    runStages? StreamTerm.meaning
        (fanOut s.segments.length ++ s.cutStages s.segments ++ join s.segments.length)
        ((.sourceVideo, .file 0) :: s.maskStream)
      = some (s.maskStream ++ [(joinedLabel s.segments.length, s.videoTerm)]) := by
  by_cases hlength : 1 < s.segments.length
  · exact s.run_several hlength
  · obtain ⟨segment, hsegment⟩ : ∃ segment, s.segments = [segment] := by
      have hpositive := List.length_pos_iff.mpr hkept
      exact List.length_eq_one_iff.mp (by omega)
    have hrun := s.run_single hsegment
    rw [hsegment]
    exact hrun

/-! ## §3. The picture and the palette. -/

theorem maskScaled_ne_joinedLabel (n : Nat) : Label.maskScaled ≠ joinedLabel n := by
  unfold joinedLabel
  split
  · decide
  · split <;> decide

/-- **The picture**: the video as it is, or framed. -/
theorem run_frame (n : Nat) :
    runStages? StreamTerm.meaning (s.frameStages (joinedLabel n))
        (s.maskStream ++ [(joinedLabel n, s.videoTerm)])
      = some [(s.frameLabel (joinedLabel n), s.pictureTerm)] := by
  unfold frameStages frameLabel pictureTerm maskStream
  cases s.background.enabled with
  | false => rfl
  | true =>
      have hscaled : Label.maskScaled ∉ Ready.labels [(joinedLabel n, s.videoTerm)] := fun hmem =>
        maskScaled_ne_joinedLabel n (List.mem_singleton.mp hmem)
      simp only [if_true]
      unfold backdrop
      -- The mask stands before the video, and its alpha behind it, as the merge reads them.
      show runStages? StreamTerm.meaning _
        ([] ++ (Label.maskImage, .file 1) :: [(joinedLabel n, s.videoTerm)]) = _
      rw [runStages?_unary [] (fun hmem => nomatch hmem) rfl, List.nil_append,
        runStages?_pipe hscaled rfl]
      show runStages? StreamTerm.meaning _ [_, _] = _
      rw [runStages?_binary rfl]
      rfl

omit [Scalar α] in
/-- **The GIF**: a picture in the palette made for it. -/
theorem run_palette (colors dither : Nat) (picture : Label) (t : StreamTerm α) :
    runStages? StreamTerm.meaning (paletteStages colors dither picture) [(picture, t)]
      = some [(.output,
          .filtered (.paletteUse dither) [t, .filtered (.paletteGen colors) [t]])] := by
  have hsplit : Stage.run? StreamTerm.meaning
      ⟨"palette split", .split 2, [picture], [.paletteSource, .paletteFrames]⟩ [(picture, t)]
        = some [(.paletteSource, t), (.paletteFrames, t)] :=
    Stage.run?_one [] [t, t] (fun hmem => nomatch hmem) rfl rfl
  unfold paletteStages
  rw [runStages?_cons, hsplit, Option.bind_some]
  show runStages? StreamTerm.meaning _
    ([] ++ (Label.paletteSource, t) :: [(.paletteFrames, t)]) = _
  rw [runStages?_unary [] (fun hmem => nomatch hmem) rfl]
  show runStages? StreamTerm.meaning _ [_, _] = _
  rw [runStages?_binary rfl]
  rfl

/-- **THE TERM OF A PLAN** is the one that the edit asks for, under the declared label, and
no other stream is left over. -/
theorem terms?_pipeline (hkept : s.segments ≠ []) :
    s.pipeline.terms? = some [(s.pipeline.output, s.gifTerm)] := by
  have hstages : s.pipeline.stages
      = (fanOut s.segments.length ++ s.cutStages s.segments ++ join s.segments.length)
        ++ (s.frameStages (joinedLabel s.segments.length)
          ++ paletteStages s.exportSettings.colors s.exportSettings.dither
              (s.frameLabel (joinedLabel s.segments.length))) := by
    show s.stages s.segments = _
    rw [stages_eq]
    unfold lastStages
    simp only [List.append_assoc]
  have hinputs : s.pipeline.inputs = s.inputs := rfl
  unfold Pipeline.terms?
  rw [hstages, hinputs, fileStreams_eq, runStages?_append, s.run_video hkept, Option.bind_some,
    runStages?_append, s.run_frame, Option.bind_some, run_palette]
  rfl

end Specification
end GifEdit
