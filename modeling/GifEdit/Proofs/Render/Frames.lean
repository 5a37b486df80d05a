/-
  GifEdit.Proofs.Render.Frames
  ────────────────────────────
  **THE FRAMES OF A PLAN FIT TOGETHER.**

  A plan computes one term, and running it on frames finds the frame of that term; so
  the term alone is judged:

      segment    the sides of the video, if its crop lies inside the clip
      video      joins equal sides
      picture    merges a mask that was drawn with the sides of the video, and pads
                 by twice the offset
      GIF        the picture

  All sides but those of the crop are right by construction.  The crop is inside its
  frame as far as the check of an edit sees, whose far edges end at the largest word:
  in the widest clip an edge beyond the words passes for one at its border.

  Main result: `frames_fit_iff`, for every accepted edit that keeps a segment.
-/
import GifEdit.Proofs.Edit.Specification
import GifEdit.Proofs.Geometry.Letterbox
import GifEdit.Proofs.Render.Planner
import GifEdit.Proofs.Render.TermFrames
import GifEdit.Scalar.Exact

namespace GifEdit

variable {α : Type}

/-! ## §1. Sides of a layout. -/

theorem evenSide_even (n : Nat) : evenSide n % 2 = 0 := by
  have hfloor := floorEven_even n
  show max (floorEven n) 2 % 2 = 0
  omega

theorem two_le_evenSide (n : Nat) : 2 ≤ evenSide n := Nat.le_max_right _ _

/-- Sides that an encoder accepts. -/
structure Frame.Encodable (f : Frame) : Prop where
  width_even : f.width % 2 = 0
  height_even : f.height % 2 = 0
  two_le_width : 2 ≤ f.width
  two_le_height : 2 ≤ f.height

/-- The video sits in the middle of its frame. -/
structure Layout.Centred (l : Layout) : Prop where
  video : l.video.Encodable
  frame : l.frame.Encodable
  width_eq : l.frame.width = l.video.width + 2 * l.offsetX
  height_eq : l.frame.height = l.video.height + 2 * l.offsetY

namespace Specification

variable [Scalar α] (s : Specification α)

/-- The scaled video can be encoded: its sides are even, and two at least. -/
theorem videoFrame_encodable : s.videoFrame.Encodable :=
  ⟨evenSide_even _, evenSide_even _, two_le_evenSide _, two_le_evenSide _⟩

/-- **Every layout is centred**, and all its sides can be encoded. -/
theorem layout_centred : s.layout.Centred := by
  have hvideo := s.videoFrame_encodable
  refine ⟨hvideo, ⟨?_, ?_, ?_, ?_⟩, rfl, rfl⟩
  · exact (Nat.add_mul_mod_self_left _ 2 _).trans hvideo.width_even
  · exact (Nat.add_mul_mod_self_left _ 2 _).trans hvideo.height_even
  · exact Nat.le_add_right_of_le hvideo.two_le_width
  · exact Nat.le_add_right_of_le hvideo.two_le_height

/-- Without a backdrop the picture is the video. -/
theorem layout_frame_of_disabled (h : s.background.enabled = false) :
    s.layout.frame = s.layout.video := by
  unfold layout Background.margin
  rw [h]
  rfl

/-! ## §2. The frame of an edit. -/

/-- The crop of a segment can be cut out of the frame of the clip. -/
def CutsInside (segment : Segment α) : Prop :=
  segment.kind = .cropped → ∀ r ∈ s.crop, s.source.frame.admits r = true

/-- The frames of the files that an edit reads. -/
def fileFrames : List Frame := s.inputs.map fun i => i.frame s.source.frame

/-- **A segment** ends at the sides of the video, if its crop can be cut out. -/
theorem frame?_segmentTerm {segment : Segment α} {f : Frame} :
    (s.segmentTerm segment).frame? s.fileFrames = some f
      ↔ s.CutsInside segment ∧ f = s.layout.video := by
  have htimed : StreamTerm.frame? s.fileFrames (.filtered (.fps s.exportSettings.fps)
      [.filtered .resetTimestamps [.filtered (.trim segment.start segment.stop) [.file 0]]])
        = some s.source.frame := by
    rw [StreamTerm.frame?_unary, StreamTerm.frame?_unary, StreamTerm.frame?_unary]
    rfl
  have hscale : ∀ t : StreamTerm α,
      StreamTerm.frame? s.fileFrames (.filtered (.scale s.layout.video) [t])
        = (t.frame? s.fileFrames).map fun _ => s.layout.video := by
    intro t
    rw [StreamTerm.frame?_unary, Option.map_eq_bind]
    rfl
  unfold segmentTerm CutsInside
  rw [hscale, Option.map_eq_some_iff]
  -- Scaling comes last and takes any frame, so only a crop can fail before it.
  cases segment.kind with
  | full =>
      dsimp only
      rw [htimed]
      constructor
      · rintro ⟨_, -, rfl⟩
        exact ⟨fun hkind => (nomatch hkind), rfl⟩
      · rintro ⟨-, rfl⟩
        exact ⟨_, rfl, rfl⟩
  | cropped =>
      cases s.crop with
      | none =>
          dsimp only
          rw [htimed]
          constructor
          · rintro ⟨_, -, rfl⟩
            exact ⟨fun _ r hr => (nomatch hr), rfl⟩
          · rintro ⟨-, rfl⟩
            exact ⟨_, rfl, rfl⟩
      | some r =>
          dsimp only
          rw [StreamTerm.frame?_unary, htimed, Option.bind_some]
          unfold Frame.meaning
          by_cases hadmits : s.source.frame.admits r = true
          · simp [hadmits, @eq_comm _ f]
          · simp [hadmits]

/-- Segments in a row, of which each crop can be cut out. -/
theorem frames?_segmentTerms {segments : List (Segment α)} {fs : List Frame} :
    StreamTerm.frames? s.fileFrames (segments.map s.segmentTerm) = some fs
      ↔ (∀ segment ∈ segments, s.CutsInside segment)
        ∧ fs = List.replicate segments.length s.layout.video := by
  induction segments generalizing fs with
  | nil =>
      show some [] = some fs ↔ _
      simp [eq_comm]
  | cons segment segments ih =>
      rw [List.map_cons, StreamTerm.frames?, List.forall_mem_cons]
      simp only [Option.bind_eq_some_iff, Option.map_eq_some_iff, frame?_segmentTerm, ih]
      constructor
      · rintro ⟨f, ⟨hcut, rfl⟩, rest, ⟨hcuts, rfl⟩, rfl⟩
        exact ⟨⟨hcut, hcuts⟩, rfl⟩
      · rintro ⟨⟨hcut, hcuts⟩, rfl⟩
        exact ⟨_, ⟨hcut, rfl⟩, _, ⟨hcuts, rfl⟩, rfl⟩

omit [Scalar α] in
/-- Equal frames may be joined. -/
theorem meaning_concat_replicate (n : Nat) (f : Frame) :
    Frame.meaning (.concat (n + 1) : Operation α) (List.replicate (n + 1) f) = some [f] := by
  show (if _ then some [f] else none) = some [f]
  rw [if_pos]
  simp

/-- **The video** has its sides, whether it is one segment or several. -/
theorem frame?_videoTerm {f : Frame} (hkept : s.segments ≠ []) :
    s.videoTerm.frame? s.fileFrames = some f
      ↔ (∀ segment ∈ s.segments, s.CutsInside segment) ∧ f = s.layout.video := by
  unfold videoTerm
  generalize s.segments = segments at hkept ⊢
  -- One segment is the video itself; only several of them are joined.
  match segments with
  | [] => exact absurd rfl hkept
  | [segment] =>
      show (s.segmentTerm segment).frame? s.fileFrames = some f ↔ _
      rw [frame?_segmentTerm, List.forall_mem_singleton]
  | first :: second :: rest =>
      let segments := first :: second :: rest
      show StreamTerm.frame? _ (.filtered (.concat (segments.map s.segmentTerm).length)
        (segments.map s.segmentTerm)) = some f ↔ _
      rw [List.length_map, StreamTerm.frame?, Option.bind_eq_some_iff]
      simp only [frames?_segmentTerms]
      have hjoin : Frame.meaning (.concat segments.length : Operation α)
          (List.replicate segments.length s.layout.video) = some [s.layout.video] :=
        meaning_concat_replicate _ _
      constructor
      · rintro ⟨_, ⟨hcuts, rfl⟩, hjoined⟩
        rw [hjoin] at hjoined
        exact ⟨hcuts, (Option.some.inj hjoined).symm⟩
      · rintro ⟨hcuts, rfl⟩
        refine ⟨_, ⟨hcuts, rfl⟩, ?_⟩
        rw [hjoin]
        rfl

/-- **The picture** has the frame of the layout: the mask is drawn with the sides of the
video, and the pad leaves room for it. -/
theorem frame?_pictureTerm {f : Frame} (hkept : s.segments ≠ []) :
    s.pictureTerm.frame? s.fileFrames = some f
      ↔ (∀ segment ∈ s.segments, s.CutsInside segment) ∧ f = s.layout.frame := by
  cases henabled : s.background.enabled with
  | false =>
      have hpicture : s.pictureTerm = s.videoTerm := by
        unfold pictureTerm
        rw [henabled]
        rfl
      rw [hpicture, s.layout_frame_of_disabled henabled]
      exact s.frame?_videoTerm hkept
  | true =>
      have hmask : s.fileFrames[1]? = some s.layout.video := by
        unfold fileFrames inputs
        rw [henabled]
        rfl
      have hscaled : StreamTerm.frame? s.fileFrames
          (.filtered .alphaExtract [.filtered (.scale s.layout.video) [.file 1]] : StreamTerm α)
            = some s.layout.video := by
        rw [StreamTerm.frame?_unary, StreamTerm.frame?_unary, StreamTerm.frame?, hmask]
        rfl
      -- The mask is scaled to the video, so that the two can be merged.
      have hmerge : Frame.meaning (.alphaMerge : Operation α) [s.layout.video, s.layout.video]
          = some [s.layout.video] := if_pos rfl
      -- The margins are on both sides of the video, so that it fits into the frame.
      have hpad : Frame.meaning (.pad s.layout.frame s.layout.offsetX s.layout.offsetY
          s.background.color : Operation α) [s.layout.video] = some [s.layout.frame] := by
        have hcentred := s.layout_centred
        refine if_pos ?_
        rw [Bool.and_eq_true, decide_eq_true_eq, decide_eq_true_eq, hcentred.width_eq,
          hcentred.height_eq]
        omega
      unfold pictureTerm
      simp only [henabled, if_true]
      rw [StreamTerm.frame?_unary, StreamTerm.frame?_binary, hscaled]
      cases hvideo : s.videoTerm.frame? s.fileFrames with
      | none =>
          rw [Option.bind_none, Option.bind_none]
          refine ⟨fun h => absurd h.symm (Option.some_ne_none f), fun h => ?_⟩
          rw [(s.frame?_videoTerm hkept).mpr ⟨h.1, rfl⟩] at hvideo
          exact absurd hvideo (Option.some_ne_none _)
      | some g =>
          obtain ⟨hcuts, rfl⟩ := (s.frame?_videoTerm hkept).mp hvideo
          rw [Option.bind_some, Option.bind_some, hmerge]
          show (Frame.meaning _ [s.layout.video]).bind List.head? = some f ↔ _
          rw [hpad]
          constructor
          · intro h
            exact ⟨hcuts, (Option.some.inj h).symm⟩
          · rintro ⟨-, rfl⟩
            rfl

/-- **The GIF** has the frame of the picture. -/
theorem frame?_gifTerm {f : Frame} (hkept : s.segments ≠ []) :
    s.gifTerm.frame? s.fileFrames = some f
      ↔ (∀ segment ∈ s.segments, s.CutsInside segment) ∧ f = s.layout.frame := by
  have hgif : s.gifTerm.frame? s.fileFrames = s.pictureTerm.frame? s.fileFrames := by
    unfold gifTerm
    rw [StreamTerm.frame?_binary, StreamTerm.frame?_unary]
    cases s.pictureTerm.frame? s.fileFrames with
    | none => rfl
    | some g => rfl
  rw [hgif, s.frame?_pictureTerm hkept]

/-! ## §3. The frames of a plan. -/

/-- No stage is a dead end. -/
theorem outputs_ne_nil : ∀ stage ∈ s.pipeline.stages, stage.outputs ≠ [] := by
  show ∀ stage ∈ s.stages s.segments, stage.outputs ≠ []
  rw [stages_eq]
  simp only [List.mem_append, or_imp, forall_and]
  refine ⟨⟨?_, ?_⟩, ?_⟩
  · unfold fanOut
    split
    · rename_i hseveral
      rw [List.forall_mem_singleton, ← List.length_pos_iff, List.length_map, List.length_range]
      exact Nat.zero_lt_of_lt hseveral
    · exact fun _ h => nomatch h
  · intro stage hstage
    obtain ⟨⟨segment, i⟩, -, hmem⟩ := List.mem_flatMap.mp hstage
    revert hmem
    unfold segmentStages
    dsimp only
    split <;> simp +contextual [or_imp]
  · unfold lastStages
    simp only [List.mem_append, or_imp, forall_and]
    refine ⟨⟨?_, ?_⟩, ?_⟩
    · unfold join
      split <;> simp
    · unfold frameStages backdrop
      split <;> simp
    · unfold paletteStages
      simp

/-- **A plan on frames** leaves the GIF in the frame of the layout, and refuses nothing,
exactly if each crop that is shown can be cut out. -/
theorem frames?_pipeline (hkept : s.segments ≠ []) :
    s.pipeline.frames? s.source.frame = some [(s.pipeline.output, s.layout.frame)]
      ↔ ∀ segment ∈ s.pipeline.segments, s.CutsInside segment := by
  have hready : Ready.Shows s.fileFrames
      (fileStreams ((List.range s.pipeline.inputs.length).map StreamTerm.file) :
        Ready (StreamTerm α))
      (fileStreams s.fileFrames) := by
    have hlength : s.pipeline.inputs.length = s.fileFrames.length := by
      unfold fileFrames
      rw [List.length_map]
      rfl
    unfold fileStreams Ready.Shows
    rw [hlength, List.forall₂_iff_get]
    simp [StreamTerm.frame?]
  show runStages? Frame.meaning _ (fileStreams s.fileFrames) = _ ↔ _
  rw [runStages?_shows (s.terms?_pipeline hkept) s.outputs_ne_nil hready]
  unfold Ready.Shows
  simp only [List.forall₂_cons, List.Forall₂.nil, and_true, true_and, s.frame?_gifTerm hkept]
  rfl

variable {s}

/-- The crop of an accepted edit has even sides, so only its place decides. -/
theorem cutsInside_iff (h : s.Accepted) {segment : Segment α} :
    s.CutsInside segment ↔ (segment.kind = .cropped → ∀ r ∈ s.crop,
      r.x + r.width ≤ s.source.width ∧ r.y + r.height ≤ s.source.height) := by
  unfold CutsInside
  refine forall_congr' fun _ => forall₂_congr fun r hr => ?_
  have hcrop := h.crop
  rw [Option.mem_def.mp hr, checkCrop_eq_ok] at hcrop
  unfold Frame.admits
  simp only [hcrop.2.2, Bool.and_true, Bool.and_eq_true, decide_eq_true_eq]
  rfl

/-- In a clip with sides below the largest word no cut reaches over an edge. -/
theorem cutsInside_of_lt (h : s.Accepted) (hwidth : s.source.width < Scalar.wordMax)
    (hheight : s.source.height < Scalar.wordMax) (segment : Segment α) :
    s.CutsInside segment := by
  rw [cutsInside_iff h]
  intro _ r hr
  have hcrop := h.crop
  rw [Option.mem_def.mp hr, checkCrop_eq_ok] at hcrop
  exact (Region.fitsWithin_iff hwidth hheight).mp hcrop.1

/-- **THE FRAMES OF A PLAN FIT TOGETHER** for an accepted edit that keeps a segment: no
filter refuses its pictures, and the palette is made for pictures of the frame of the
layout, exactly if the crop that a segment shows lies inside the frame of the clip.  It does
in every clip whose sides are below the largest word.  The video sits in the middle, and all
sides are even and at least two. -/
theorem frames_fit_iff (source : Clip α) (trim : TrimRange α) (crop : Option Region)
    (zoom : ZoomWindow α) (exportSettings : ExportSettings) (background : Background α)
    (s : Specification α)
    (hs : ofParts source trim crop zoom exportSettings background = .ok s)
    (hkept : s.pipeline.segments ≠ []) :
    (s.pipeline.frames? s.source.frame = some [(s.pipeline.output, s.layout.frame)] ↔
        ∀ segment ∈ s.pipeline.segments, segment.kind = .cropped → ∀ r ∈ s.crop,
          r.x + r.width ≤ s.source.width ∧ r.y + r.height ≤ s.source.height)
      ∧ (s.source.width < Scalar.wordMax → s.source.height < Scalar.wordMax →
          s.pipeline.frames? s.source.frame = some [(s.pipeline.output, s.layout.frame)])
      ∧ s.pipeline.layout.Centred := by
  have haccepted := accepted_of_ofParts hs
  have hframes := s.frames?_pipeline hkept
  refine ⟨?_, ?_, s.layout_centred⟩
  · rw [hframes]
    exact forall₂_congr fun segment _ => cutsInside_iff haccepted
  · intro hwidth hheight
    exact hframes.mpr fun segment _ => cutsInside_of_lt haccepted hwidth hheight segment

/-- Three segments, a crop at the far corner of an odd clip, and a backdrop. -/
theorem frames_fit_iff_framed :
    let source : Clip Exact := ⟨"clip.mp4", 10, 853, 481⟩
    let crop : Option Region := some ⟨531, 301, 322, 180⟩
    let background : Background Exact := ⟨true, ⟨41, 41, 41⟩, 0.1, 16⟩
    let s : Specification Exact :=
      ⟨source, ⟨0, 10⟩, crop, ⟨some 2, some 6⟩, .standard, background⟩
    ofParts source ⟨0, 10⟩ crop ⟨some 2, some 6⟩ .standard background = .ok s
      ∧ s.pipeline.segments.length = 3 ∧ s.layout = ⟨⟨600, 338⟩, ⟨720, 406⟩, 60, 34⟩
      ∧ s.pipeline.frames? s.source.frame = some [(.output, ⟨720, 406⟩)]
      ∧ s.pipeline.layout.Centred := by
  intro source crop background s
  have hs : ofParts source ⟨0, 10⟩ crop ⟨some 2, some 6⟩ .standard background = .ok s := by
    decide +kernel
  have hsegments : s.pipeline.segments.length = 3 := by decide +kernel
  have hlayout : s.layout = ⟨⟨600, 338⟩, ⟨720, 406⟩, 60, 34⟩ := by decide +kernel
  have hkept : s.pipeline.segments ≠ [] := by
    rw [← List.length_pos_iff, hsegments]
    decide
  obtain ⟨-, hframes, hcentred⟩ := frames_fit_iff _ _ _ _ _ _ s hs hkept
  have hout := hframes (by decide) (by decide)
  rw [hlayout] at hout
  exact ⟨hs, hsegments, hlayout, hout, hcentred⟩

/-- **A crop may leave the frame of the widest clip**: its right edge is cut off at the
largest word, which is the width of the clip, so the edit is accepted, and the encoder
refuses to crop. -/
theorem saturated_crop_is_refused :
    let source : Clip Exact := ⟨"clip.mp4", 10, 4294967295, 4294967295⟩
    let r : Region := ⟨4294967294, 0, 2, 2⟩
    let s : Specification Exact :=
      ⟨source, ⟨0, 10⟩, some r, ⟨some 3, none⟩, .standard, .standard⟩
    ofParts source ⟨0, 10⟩ (some r) ⟨some 3, none⟩ .standard .standard = .ok s
      ∧ s.pipeline.segments ≠ [] ∧ s.layout.frame = ⟨600, 600⟩
      ∧ source.width < r.x + r.width ∧ s.pipeline.frames? s.source.frame = none := by
  decide +kernel

end Specification
end GifEdit
