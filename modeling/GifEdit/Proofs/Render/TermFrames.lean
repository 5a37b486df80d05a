/-
  GifEdit.Proofs.Render.TermFrames
  ────────────────────────────────
  **RUNNING STAGES ON FRAMES IS TYPING THEIR TERMS.**

  A filter refuses pictures of the wrong size: a crop outside its frame, a join of
  unequal streams, a mask of other sides than the video, a pad that is too small.
  Whether all of them accept is a matter of types.  The frame of a TERM is computed
  from the inside out, and running the stages on frames finds the same frame or
  fails with it:

      terms    files ── stages ──▶ what is left
                 │                    │
               frame                frame
                 ▼                    ▼
      frames   files ── stages ──▶ what is left

  The way down on the right is the delicate one: a term without a frame must not be
  lost on the way, so that the run on terms never hides a failure.  It is not, as every
  stage makes something of all that it takes.

  Main result: `runStages?_shows`, for every list of stages that runs on terms.
-/
import GifEdit.Proofs.Render.Dataflow
import Mathlib.Data.List.Forall2

namespace GifEdit

variable {α : Type}

/-! ## §1. Frames of terms. -/

mutual

/-- The frame of the pictures of a stream, if every filter accepts what it is given. -/
def StreamTerm.frame? (files : List Frame) : StreamTerm α → Option Frame
  | .file number => files[number]?
  | .filtered operation inputs =>
      (StreamTerm.frames? files inputs).bind fun fs => (Frame.meaning operation fs).bind List.head?

/-- The frames of several streams. -/
def StreamTerm.frames? (files : List Frame) : List (StreamTerm α) → Option (List Frame)
  | [] => some []
  | t :: ts =>
      (StreamTerm.frame? files t).bind fun f => (StreamTerm.frames? files ts).map (f :: ·)

end

namespace StreamTerm

variable {files : List Frame} {operation : Operation α} {ts made : List (StreamTerm α)}
  {fs made' : List Frame}

/-- Terms have frames if each of them has its own. -/
theorem frames?_eq_some_iff :
    frames? files ts = some fs ↔ List.Forall₂ (fun t f => t.frame? files = some f) ts fs := by
  induction ts generalizing fs with
  | nil => simp [frames?, eq_comm]
  | cons t ts ih =>
      unfold frames?
      simp only [Option.bind_eq_some_iff, Option.map_eq_some_iff, ih, List.forall₂_cons_left_iff]
      constructor
      · rintro ⟨f, hf, rest, hrest, rfl⟩
        exact ⟨f, rest, hf, hrest, rfl⟩
      · rintro ⟨f, rest, hf, hrest, rfl⟩
        exact ⟨f, hf, rest, hrest, rfl⟩

theorem exists_frames?_iff :
    (∃ fs, frames? files ts = some fs) ↔ ∀ t ∈ ts, ∃ f, t.frame? files = some f := by
  induction ts with
  | nil => simp [frames?]
  | cons t ts ih =>
      rw [List.forall_mem_cons, ← ih]
      simp only [frames?, Option.bind_eq_some_iff, Option.map_eq_some_iff]
      constructor
      · rintro ⟨_, f, hf, fs, hfs, -⟩
        exact ⟨⟨f, hf⟩, fs, hfs⟩
      · rintro ⟨⟨f, hf⟩, fs, hfs⟩
        exact ⟨f :: fs, f, hf, fs, hfs, rfl⟩

/-- What filters make of terms: a split copies, any other filter makes one new term. -/
theorem meaning_eq_some (h : meaning operation ts = some made) :
    (∃ n t, operation = .split n ∧ ts = [t] ∧ made = List.replicate n t)
      ∨ ((∀ n, operation ≠ .split n) ∧ made = [.filtered operation ts]) := by
  unfold meaning at h
  split at h
  case h_1 n t => exact .inl ⟨n, t, rfl, rfl, (Option.some.inj h).symm⟩
  case h_2 n ts =>
    split at h
    · exact .inr ⟨nofun, (Option.some.inj h).symm⟩
    · exact nomatch h
  case h_3 => exact .inr ⟨nofun, (Option.some.inj h).symm⟩
  case h_4 => exact .inr ⟨nofun, (Option.some.inj h).symm⟩
  case h_5 => exact nomatch h
  case h_6 => exact nomatch h
  case h_7 => exact nomatch h
  case h_8 t hsplit _ _ _ => exact .inr ⟨hsplit, (Option.some.inj h).symm⟩
  case h_9 => exact nomatch h

/-- What filters make of frames: but for a split, at most one frame. -/
theorem frames_eq_singleton (hsplit : ∀ n, operation ≠ .split n)
    (h : Frame.meaning operation fs = some made') : ∃ f, made' = [f] := by
  unfold Frame.meaning at h
  split at h
  case h_1 n f => exact absurd rfl (hsplit n)
  case h_13 => exact nomatch h
  -- Where a filter has a condition, it makes its frame or nothing.
  case h_6 | h_8 | h_9 | h_10 | h_12 =>
    split at h
    · exact ⟨_, (Option.some.inj h).symm⟩
    · exact nomatch h
  all_goals exact ⟨_, (Option.some.inj h).symm⟩

theorem frames?_singleton (t : StreamTerm α) :
    frames? files [t] = (t.frame? files).map ([·]) := by
  rw [frames?, frames?]
  cases t.frame? files with
  | none => rfl
  | some f => rfl

theorem frames?_replicate {f : Frame} (t : StreamTerm α) (hf : t.frame? files = some f) (n : Nat) :
    frames? files (List.replicate n t) = some (List.replicate n f) := by
  induction n with
  | zero => rfl
  | succ n ih =>
      rw [List.replicate_succ, frames?, hf, ih]
      rfl

/-- **A filter finds the frames of the terms it makes**, and fails where one has none. -/
theorem meaning_eq_frames? (hinputs : frames? files ts = some fs)
    (hmade : meaning operation ts = some made) :
    Frame.meaning operation fs = frames? files made := by
  rcases meaning_eq_some hmade with ⟨n, t, rfl, rfl, rfl⟩ | ⟨hsplit, rfl⟩
  · rw [frames?_singleton, Option.map_eq_some_iff] at hinputs
    obtain ⟨f, hf, rfl⟩ := hinputs
    rw [frames?_replicate t hf]
    rfl
  · rw [frames?_singleton, frame?, hinputs, Option.bind_some]
    cases hframes : Frame.meaning operation fs with
    | none => rfl
    | some made' =>
        obtain ⟨f, rfl⟩ := frames_eq_singleton hsplit hframes
        rfl

/-- The frame of a filter on one stream. -/
theorem frame?_unary (t : StreamTerm α) :
    frame? files (.filtered operation [t])
      = (t.frame? files).bind fun f => (Frame.meaning operation [f]).bind List.head? := by
  rw [frame?, frames?_singleton]
  cases t.frame? files with
  | none => rfl
  | some f => rfl

theorem frame?_binary (t u : StreamTerm α) :
    frame? files (.filtered operation [t, u])
      = (t.frame? files).bind fun f => (u.frame? files).bind fun g =>
          (Frame.meaning operation [f, g]).bind List.head? := by
  rw [frame?, frames?, frames?_singleton]
  cases t.frame? files with
  | none => rfl
  | some f =>
      cases u.frame? files with
      | none => rfl
      | some g => rfl

/-- What was made of terms has no frame unless they have. -/
theorem exists_frames?_of_made (hmade : meaning operation ts = some made) (hne : made ≠ [])
    (hframes : frames? files made = some made') : ∃ fs, frames? files ts = some fs := by
  rcases meaning_eq_some hmade with ⟨n, t, rfl, rfl, rfl⟩ | ⟨hsplit, rfl⟩
  · cases n with
    | zero => exact absurd rfl hne
    | succ n =>
        rw [List.replicate_succ, frames?, Option.bind_eq_some_iff] at hframes
        obtain ⟨f, hf, -⟩ := hframes
        exact ⟨[f], by rw [frames?_singleton, hf]; rfl⟩
  · rw [frames?_singleton, Option.map_eq_some_iff] at hframes
    obtain ⟨f, hf, -⟩ := hframes
    rw [frame?, Option.bind_eq_some_iff] at hf
    obtain ⟨fs, hfs, -⟩ := hf
    exact ⟨fs, hfs⟩

end StreamTerm

/-! ## §2. Runs on frames. -/

namespace Ready

/-- The second streams are the frames of the first, label by label. -/
def Shows (files : List Frame) (ready : Ready (StreamTerm α)) (frames : Ready Frame) : Prop :=
  List.Forall₂ (fun s f => f.1 = s.1 ∧ s.2.frame? files = some f.2) ready frames

variable {files : List Frame} {label : Label} {t : StreamTerm α} {f : Frame}
  {ready others : Ready (StreamTerm α)} {frames others' : Ready Frame}

/-- A stream that is taken from the terms is taken from the frames, too. -/
theorem Shows.take? (h : ready.Shows files frames) (ht : ready.take? label = some (t, others)) :
    ∃ f others', frames.take? label = some (f, others') ∧ t.frame? files = some f
      ∧ others.Shows files others' := by
  induction h generalizing others with
  | nil => exact nomatch ht
  | @cons entry frame ready frames hentry hrest ih =>
      obtain ⟨l, u⟩ := entry
      obtain ⟨l', g⟩ := frame
      obtain ⟨rfl, hg⟩ := hentry
      unfold Ready.take? at ht ⊢
      by_cases hl : l' = label
      · rw [if_pos hl] at ht ⊢
        obtain ⟨rfl, rfl⟩ := Prod.mk.inj (Option.some.inj ht)
        exact ⟨g, frames, rfl, hg, hrest⟩
      · rw [if_neg hl, Option.map_eq_some_iff] at ht
        rw [if_neg hl]
        obtain ⟨⟨found, rest⟩, htake, heq⟩ := ht
        obtain ⟨rfl, rfl⟩ := Prod.mk.inj heq
        obtain ⟨f, rest', htake', hf, hshows⟩ := ih htake
        exact ⟨f, (l', g) :: rest', by rw [htake']; rfl, hf, .cons ⟨rfl, hg⟩ hshows⟩

/-- All streams that a stage reads have the frames of their terms. -/
theorem Shows.takeAll? {labels : List Label} {ts : List (StreamTerm α)}
    (h : ready.Shows files frames) (ht : ready.takeAll? labels = some (ts, others)) :
    ∃ fs others', frames.takeAll? labels = some (fs, others')
      ∧ StreamTerm.frames? files ts = some fs ∧ others.Shows files others' := by
  induction labels generalizing ready frames ts with
  | nil =>
      obtain ⟨rfl, rfl⟩ := Prod.mk.inj (Option.some.inj ht)
      exact ⟨[], frames, rfl, rfl, h⟩
  | cons label labels ih =>
      unfold Ready.takeAll? at ht
      simp only [Option.bind_eq_bind, Option.bind_eq_some_iff] at ht
      obtain ⟨⟨t, middle⟩, htake, ⟨rest, others₁⟩, htakes, heq⟩ := ht
      obtain ⟨rfl, rfl⟩ := Prod.mk.inj (Option.some.inj heq)
      obtain ⟨f, middle', htake', hf, hmiddle⟩ := h.take? htake
      obtain ⟨fs, others', htakes', hfs, hothers⟩ := ih hmiddle htakes
      refine ⟨f :: fs, others', ?_, ?_, hothers⟩
      · unfold Ready.takeAll?
        simp only [htake', htakes', Option.bind_eq_bind, Option.bind_some]
        rfl
      · rw [StreamTerm.frames?, hf, hfs]
        rfl

/-- A stream has the frame of its term and no other. -/
theorem Shows.unique {frames' : Ready Frame} (h : ready.Shows files frames)
    (h' : ready.Shows files frames') : frames = frames' := by
  induction h generalizing frames' with
  | nil =>
      cases h'
      rfl
  | cons hentry _ ih =>
      cases h' with
      | cons hentry' hrest' =>
          obtain ⟨hl, hf⟩ := hentry
          obtain ⟨hl', hf'⟩ := hentry'
          rw [ih hrest', Prod.ext (hl.trans hl'.symm) (Option.some.inj (hf.symm.trans hf'))]

theorem Shows.append {back : Ready (StreamTerm α)} {back' : Ready Frame}
    (h : others.Shows files others') (hback : back.Shows files back') :
    Ready.Shows files (others ++ back) (others' ++ back') := List.rel_append h hback

/-- Terms under labels are shown by their frames under the same labels. -/
theorem shows_zip {labels : List Label} {ts : List (StreamTerm α)} {fs : List Frame}
    (h : StreamTerm.frames? files ts = some fs) :
    Ready.Shows files (labels.zip ts) (labels.zip fs) := by
  rw [StreamTerm.frames?_eq_some_iff] at h
  induction h generalizing labels with
  | nil =>
      rw [List.zip_nil_right, List.zip_nil_right]
      exact .nil
  | cons hf _ ih =>
      cases labels with
      | nil => exact .nil
      | cons l labels => exact .cons ⟨rfl, hf⟩ ih

/-- Every stream has a frame. -/
def Framed (files : List Frame) (ready : Ready (StreamTerm α)) : Prop :=
  ∀ s ∈ ready, ∃ f, s.2.frame? files = some f

/-- Every stream has a frame exactly if frames show them all. -/
theorem framed_iff_shows : ready.Framed files ↔ ∃ frames, ready.Shows files frames := by
  constructor
  · intro h
    induction ready with
    | nil => exact ⟨[], .nil⟩
    | cons s ready ih =>
        obtain ⟨f, hf⟩ := h s List.mem_cons_self
        obtain ⟨frames, hframes⟩ := ih fun r hr => h r (List.mem_cons_of_mem s hr)
        exact ⟨(s.1, f) :: frames, .cons ⟨rfl, hf⟩ hframes⟩
  · rintro ⟨frames, h⟩ s hs
    induction h with
    | nil => exact nomatch hs
    | cons hentry _ ih =>
        rcases List.mem_cons.mp hs with rfl | hs
        · exact ⟨_, hentry.2⟩
        · exact ih hs

/-- What was ready is taken, or is still ready. -/
theorem mem_of_takeAll? {labels : List Label} {ts : List (StreamTerm α)}
    (ht : ready.takeAll? labels = some (ts, others)) {s : Label × StreamTerm α} (hs : s ∈ ready) :
    s.2 ∈ ts ∨ s ∈ others := by
  have hmem := (takeAll?_entries ht).1.mem_iff.mpr hs
  exact (List.mem_append.mp hmem).imp_left fun hzip => (List.of_mem_zip hzip).2

end Ready

section Runs

variable {files : List Frame} {s : Stage α} {stages : List (Stage α)}
  {ready next final : Ready (StreamTerm α)} {frames frames' : Ready Frame}

/-- What a stage made has frames if all that is ready after it has. -/
theorem exists_frames?_of_framed {labels : List Label} {made : List (StreamTerm α)}
    (hlength : made.length = labels.length) (h : Ready.Framed files (labels.zip made)) :
    ∃ made', StreamTerm.frames? files made = some made' := by
  rw [StreamTerm.exists_frames?_iff]
  intro t ht
  rw [← List.map_snd_zip (Nat.le_of_eq hlength)] at ht
  obtain ⟨s, hs, rfl⟩ := List.mem_map.mp ht
  exact h s hs

/-- **One stage** on frames: it makes the frames of what it makes of terms, and fails
where one of these has none. -/
theorem Stage.run?_shows (hrun : s.run? StreamTerm.meaning ready = some next)
    (hready : ready.Shows files frames) :
    s.run? Frame.meaning frames = some frames' ↔ next.Shows files frames' := by
  obtain ⟨taken, others, made, htaken, hmade, hlength, rfl⟩ := Stage.run?_eq_some hrun
  obtain ⟨fs, others', htaken', hfs, hothers⟩ := hready.takeAll? htaken
  -- The stage takes streams of the same labels on both sides, so it computes on their frames.
  have hstep : s.run? Frame.meaning frames = (StreamTerm.frames? files made).bind fun made' =>
      if made'.length = s.outputs.length then some (others' ++ s.outputs.zip made') else none := by
    unfold Stage.run?
    rw [htaken', ← StreamTerm.meaning_eq_frames? hfs hmade]
    rfl
  rw [hstep]
  constructor
  · intro h
    obtain ⟨made', hframes, hresult⟩ := Option.bind_eq_some_iff.mp h
    split at hresult
    · obtain rfl := Option.some.inj hresult
      exact hothers.append (Ready.shows_zip hframes)
    · exact nomatch hresult
  · intro h
    have hframed := Ready.framed_iff_shows.mpr ⟨frames', h⟩
    obtain ⟨made', hframes⟩ := exists_frames?_of_framed hlength fun s hs =>
      hframed s (List.mem_append_right others hs)
    have hlength' : made'.length = s.outputs.length := by
      rw [← hlength, (StreamTerm.frames?_eq_some_iff.mp hframes).length_eq]
    rw [hframes, Option.bind_some, if_pos hlength',
      (hothers.append (Ready.shows_zip hframes)).unique h]

/-- A stage that makes anything takes nothing without a frame, if none is ready after it. -/
theorem Stage.framed_of_run? (hrun : s.run? StreamTerm.meaning ready = some next)
    (houtputs : s.outputs ≠ []) (hnext : next.Framed files) : ready.Framed files := by
  obtain ⟨taken, others, made, htaken, hmade, hlength, rfl⟩ := Stage.run?_eq_some hrun
  obtain ⟨made', hframes⟩ := exists_frames?_of_framed hlength fun s hs =>
    hnext s (List.mem_append_right others hs)
  have hne : made ≠ [] := by
    rw [← List.length_pos_iff, hlength, List.length_pos_iff]
    exact houtputs
  have htakenFramed := StreamTerm.exists_frames?_iff.mp
    (StreamTerm.exists_frames?_of_made hmade hne hframes)
  intro r hr
  rcases Ready.mem_of_takeAll? htaken hr with h | h
  · exact htakenFramed r.2 h
  · exact hnext r (List.mem_append_left _ h)

/-- If what a run leaves has frames, what it began with had some. -/
theorem runStages?_framed (hrun : runStages? StreamTerm.meaning stages ready = some final)
    (houtputs : ∀ s ∈ stages, s.outputs ≠ []) (hfinal : final.Framed files) :
    ready.Framed files := by
  induction stages generalizing ready with
  | nil =>
      obtain rfl := Option.some.inj hrun
      exact hfinal
  | cons s stages ih =>
      rw [runStages?_cons, Option.bind_eq_some_iff] at hrun
      obtain ⟨next, hnext, hrest⟩ := hrun
      have hframed := ih hrest fun r hr => houtputs r (List.mem_cons_of_mem s hr)
      exact Stage.framed_of_run? hnext (houtputs s List.mem_cons_self) hframed

/-- **A RUN ON FRAMES FINDS THE FRAMES OF THE TERMS**: it succeeds exactly if the streams
that are left have frames, and leaves these. -/
theorem runStages?_shows (hrun : runStages? StreamTerm.meaning stages ready = some final)
    (houtputs : ∀ s ∈ stages, s.outputs ≠ []) (hready : ready.Shows files frames) :
    runStages? Frame.meaning stages frames = some frames' ↔ final.Shows files frames' := by
  induction stages generalizing ready frames with
  | nil =>
      obtain rfl := Option.some.inj hrun
      show some frames = some frames' ↔ _
      rw [Option.some_inj]
      exact ⟨fun h => h ▸ hready, hready.unique⟩
  | cons s stages ih =>
      rw [runStages?_cons, Option.bind_eq_some_iff] at hrun
      obtain ⟨next, hnext, hrest⟩ := hrun
      have htail : ∀ r ∈ stages, r.outputs ≠ [] := fun r hr =>
        houtputs r (List.mem_cons_of_mem s hr)
      rw [runStages?_cons, Option.bind_eq_some_iff]
      constructor
      · rintro ⟨middle, hmiddle, hend⟩
        exact (ih hrest htail ((Stage.run?_shows hnext hready).mp hmiddle)).mp hend
      · intro hfinal
        -- What is left has frames, so nothing on the way is without one.
        have hframed := runStages?_framed hrest htail (Ready.framed_iff_shows.mpr ⟨_, hfinal⟩)
        obtain ⟨middle, hmiddle⟩ := Ready.framed_iff_shows.mp hframed
        exact ⟨middle, (Stage.run?_shows hnext hready).mpr hmiddle,
          (ih hrest htail hmiddle).mpr hfinal⟩

end Runs

end GifEdit
