/-
  GifEdit.Proofs.Editor.Outcomes
  ──────────────────────────────
  **WHAT A STEP TELLS OF THE TIMELINE.**

  A step that goes to the timeline passes on what its operation tells.  But a step on the
  canvas may change the timeline, too: its commit places the zoom-in, and drops a zoom-out
  that is too close behind.  Its outcome holds the commit and an empty update:

      canvas event with a commit   the zoom-in is placed   nothing is told
      any other canvas event       —                       nothing is told
      mark of the zoom-in          the zoom-in is placed   told
      any other step               one operation           told

  So an update misses a change exactly if a commit moves a marker.  The playhead and the
  trim are never missed.

  The lemmas:

    * `zoomMoved_setZoomIn`  — when a zoom-in is placed without a change,
    * `apply_of_commit`      — a step that commits,
    * `tracks_apply`         — and any other.

  Main result: `outcomes_track_unless_committed`, for every step in every state of a session,
  begun or resumed.
-/
import GifEdit.Proofs.Editor.Updates
import GifEdit.Proofs.Editor.Commits
import GifEdit.Proofs.Editor.Reopening

namespace GifEdit

variable {α : Type} [Scalar α]

/-! ## §1. Placing a zoom-in where it is. -/

/-- A marker differs from what it is set to unless it is there already. -/
theorem differ_some (time : Option α) (a : α) :
    differ time (some a) = !time.any (· == a) := by
  cases time <;> rfl

/-- What a filter drops makes a difference. -/
theorem differ_filter {time : Option α} (h : Definite time) (p : α → Bool) :
    differ time (time.filter p) = !time.all p := by
  have hself := differ_self h
  cases time with
  | none => rfl
  | some a =>
      rw [Option.filter_some, Option.all_some]
      cases hp : p a with
      | true =>
          rw [if_pos rfl]
          exact hself
      | false =>
          rw [if_neg Bool.false_ne_true]
          rfl

namespace Timeline

/-- Whether a zoom-in placed at a time changes no marker: it is there already, and no
zoom-out is too close behind it. -/
def keepsMarkers (t : Timeline α) (time : α) : Bool :=
  let start := clampBetween time t.trimStart t.trimEnd
  t.zoomIn.any (· == start) && t.zoomOut.all fun out => !(out < start + t.tuning.minZoomGap)

/-- Setting a zoom-in moves the markers unless it keeps both. -/
theorem zoomMoved_setZoomIn {t : Timeline α} (h : t.Defined) (time : α) :
    t.zoomMoved (t.setZoomIn time).1 = !t.keepsMarkers time := by
  unfold zoomMoved keepsMarkers setZoomIn
  dsimp only
  rw [differ_some, differ_filter h.zoomOut, Bool.not_and]

end Timeline

/-! ## §2. One step. -/

namespace Session

variable {s : Session α} {step : Step α} {commit : CropCommit α}

/-- **A step that commits** places the zoom-in at the playhead, and tells nothing of it. -/
theorem apply_of_commit (h : (s.apply step).2.commit = some commit) :
    (s.apply step).2.timeline = {} ∧ commit.zoomIn = s.timeline.playhead
      ∧ (s.apply step).1.timeline = (s.timeline.setZoomIn commit.zoomIn).1 := by
  cases step with
  | canvas phase x y =>
      have hcommit : (s.crop.handle ⟨phase, x, y⟩ s.timeline.playhead).2 = some commit := h
      obtain ⟨-, -, -, htime⟩ := Cropper.handle_eq_some_iff.mp hcommit
      refine ⟨rfl, htime, ?_⟩
      show (s.canvasEvent ⟨phase, x, y⟩).1.timeline = _
      unfold canvasEvent
      simp only [hcommit]
  | timeline phase x | seek t | markZoomIn | placeZoomOut | clearCrop | preset quality =>
      exact nomatch h

/-- An event on the canvas that commits nothing leaves the timeline alone. -/
theorem canvasEvent_timeline {e : PointerEvent α} (h : (s.canvasEvent e).2 = none) :
    (s.canvasEvent e).1.timeline = s.timeline := by
  have hnone : (s.crop.handle e s.timeline.playhead).2 = none := h
  unfold canvasEvent
  simp only [hnone]

/-- A mark places the zoom-in at the playhead, if there is a crop. -/
theorem markZoomIn_eq (s : Session α) : s.markZoomIn =
    if s.crop.crop.isSome then
      ({ s with
          crop := { s.crop with zoomIn := some s.timeline.playhead }
          timeline := (s.timeline.setZoomIn s.timeline.playhead).1 },
        (s.timeline.setZoomIn s.timeline.playhead).2)
    else (s, {}) := by
  unfold markZoomIn Cropper.markZoomIn
  cases s.crop.crop.isSome <;> rfl

/-- Marking a zoom-in tells of what it has changed. -/
theorem tracks_markZoomIn (h : s.timeline.Defined) :
    s.timeline.Tracks s.markZoomIn.1.timeline s.markZoomIn.2 := by
  rw [markZoomIn_eq]
  split
  · exact Timeline.tracks_setZoomIn h s.timeline.playhead
  · exact (Timeline.tracksExactly_empty h s.timeline.track s.timeline.drag).toTracks

variable [OrderedScalar α]

/-- **Any other step** tells of every change. -/
theorem tracks_apply (h : s.timeline.Defined) (hcommit : (s.apply step).2.commit = none) :
    s.timeline.Tracks (s.apply step).1.timeline (s.apply step).2.timeline := by
  have hempty := (Timeline.tracksExactly_empty h s.timeline.track s.timeline.drag).toTracks
  cases step with
  | canvas phase x y =>
      show s.timeline.Tracks (s.canvasEvent ⟨phase, x, y⟩).1.timeline {}
      rw [canvasEvent_timeline hcommit]
      exact hempty
  | timeline phase x => exact (Timeline.tracksExactly_handle h ⟨phase, x, 0⟩).toTracks
  | seek t => exact (Timeline.tracksExactly_seek h t).toTracks
  | markZoomIn => exact tracks_markZoomIn h
  | placeZoomOut => exact Timeline.tracks_placeZoomOut h s.timeline.playhead
  | clearCrop => exact (Timeline.tracksExactly_clearZoom h).toTracks
  | preset quality => exact hempty

/-! ## §3. Every state of a session. -/

/-- Actions keep the times of the timeline defined. -/
theorem timeline_defined_run (actions : List (SessionAction α)) (h : s.timeline.Defined) :
    (s.run actions).timeline.Defined := by
  induction actions generalizing s with
  | nil => exact h
  | cons action actions ih =>
      obtain ⟨operations, htimeline, -⟩ := (s.act_follows action).timeline
      refine ih ?_
      rw [htimeline]
      exact Timeline.defined_run operations h

/-- A session on a clip, new or with a saved edit. -/
def Opens (config : Config α) (container : Size α) (track : Track α) (s : Session α) : Prop :=
  (∃ source, start source config container track = .ok s)
    ∨ ∃ edit, resume edit config container track = .ok s

/-- A session that opens has a timeline of defined times. -/
theorem timeline_defined_of_opens {config : Config α} {container : Size α} {track : Track α}
    (hopens : Opens config container track s) : s.timeline.Defined := by
  have hstart {source : Clip α} {s₀ : Session α}
      (hs₀ : start source config container track = .ok s₀) : s₀.timeline.Defined := by
    obtain ⟨-, settings, background, -, -, rfl⟩ := start_eq_ok.mp hs₀
    exact Timeline.defined_fresh _ _ _
  rcases hopens with ⟨source, hs⟩ | ⟨edit, hs⟩
  · exact hstart hs
  · obtain ⟨s₀, hs₀, rfl⟩ := resume_eq_ok.mp hs
    exact Timeline.defined_restore (hstart hs₀) edit.trim edit.zoom

/-- **AN OUTCOME TELLS OF EVERY CHANGE OF THE TIMELINE, UNLESS ITS COMMIT MAKES IT**: for every
step in every state of a session, the new playhead and a change of the trim are told; a
change of the markers is told, too, if and only if the step does not commit where a commit
changes them. -/
theorem outcomes_track_unless_committed (config : Config α) (container : Size α)
    (track : Track α) (s : Session α) (actions : List (SessionAction α)) (step : Step α)
    (hopens : Opens config container track s) :
    let before := s.run actions
    let after := (before.apply step).1
    let outcome := (before.apply step).2
    (∀ x ∈ outcome.timeline.seek, x = after.timeline.playhead)
      ∧ (outcome.timeline.seek = none → after.timeline.playhead = before.timeline.playhead)
      ∧ outcome.timeline.trimChanged = before.timeline.trimMoved after.timeline
      ∧ ((before.timeline.zoomMoved after.timeline = true → outcome.timeline.zoomChanged = true)
          ↔ (outcome.commit.isSome = true →
              before.timeline.keepsMarkers before.timeline.playhead = true)) := by
  intro before after outcome
  have hdefined : before.timeline.Defined :=
    timeline_defined_run actions (timeline_defined_of_opens hopens)
  cases hcommit : outcome.commit with
  | none =>
      have htracks := tracks_apply hdefined hcommit
      exact ⟨fun x hx => (htracks.sought x hx).1, htracks.unsought, htracks.trim,
        fun _ hsome => (nomatch hsome), fun _ => htracks.zoom⟩
  | some commit =>
      obtain ⟨hempty, htime, htimeline⟩ := apply_of_commit hcommit
      have htracks := Timeline.tracks_setZoomIn hdefined commit.zoomIn
      have hmoved := Timeline.zoomMoved_setZoomIn hdefined commit.zoomIn
      rw [show outcome.timeline = {} from hempty, show after.timeline = _ from htimeline, hmoved]
      refine ⟨fun x hx => (nomatch hx), htracks.unsought, htracks.trim, ?_⟩
      -- The update is empty, so it is right exactly where there is nothing to tell.
      rw [show before.timeline.playhead = commit.zoomIn from htime.symm]
      cases before.timeline.keepsMarkers commit.zoomIn <;> simp

/-- A crop is drawn at three seconds, a zoom-out placed at six, and a second crop is
drawn at three seconds again, which leaves the markers where they are. -/
theorem outcomes_track_unless_committed_again :
    let source : Clip Exact := ⟨"clip.mp4", 10, 640, 360⟩
    let config : Config Exact := {}
    let container : Size Exact := ⟨640, 360⟩
    let s : Session Exact := {
      source := source
      crop := Cropper.fresh config.interaction.cropTuning source.frame (container.fit source.frame)
      timeline := Timeline.fresh config.interaction.timelineTuning 10 ⟨0, 1000⟩
      exportSettings := .standard
      background := .standard }
    let before := s.run
      [.step (.seek 3), .step (.canvas .down 100 100), .step (.canvas .move 260 190),
        .step (.canvas .up 260 190), .step (.seek 6), .step .placeZoomOut, .step (.seek 3),
        .step (.canvas .down 400 200), .step (.canvas .move 560 290)]
    let outcome := (before.apply (.canvas .up 560 290)).2
    start source config container ⟨0, 1000⟩ = .ok s ∧ outcome.commit.isSome = true
      ∧ before.timeline.zoomOut = some 6
      ∧ (before.timeline.zoomMoved (before.apply (.canvas .up 560 290)).1.timeline = true →
          outcome.timeline.zoomChanged = true) := by
  intro source config container s before outcome
  have hstart : start source config container ⟨0, 1000⟩ = .ok s := by decide +kernel
  have hkept : before.timeline.keepsMarkers before.timeline.playhead = true := by decide +kernel
  obtain ⟨-, -, -, htold⟩ := outcomes_track_unless_committed config container ⟨0, 1000⟩ s _
    (.canvas .up 560 290) (.inl ⟨source, hstart⟩)
  exact ⟨hstart, by decide +kernel, by decide +kernel, htold.mpr fun _ => hkept⟩

/-- The first crop of a session is drawn, and its commit places the zoom-in at the
front; then one is drawn at six seconds, and its commit drops the zoom-out at six.  Neither is
told. -/
theorem commits_are_not_told :
    let source : Clip Exact := ⟨"clip.mp4", 10, 640, 360⟩
    let s : Session Exact := {
      source := source
      crop := Cropper.fresh ({} : Config Exact).interaction.cropTuning source.frame ⟨640, 360⟩
      timeline := Timeline.fresh ({} : Config Exact).interaction.timelineTuning 10 ⟨0, 1000⟩
      exportSettings := .standard
      background := .standard }
    let drawn := s.run [.step (.canvas .down 100 100), .step (.canvas .move 260 190)]
    let first := drawn.apply (.canvas .up 260 190)
    let redrawn := first.1.run
      [.step (.seek 6), .step .placeZoomOut, .step (.canvas .down 400 200),
        .step (.canvas .move 560 290)]
    let second := redrawn.apply (.canvas .up 560 290)
    start source {} ⟨640, 360⟩ ⟨0, 1000⟩ = .ok s
      ∧ drawn.timeline.zoomIn = none ∧ first.1.timeline.zoomIn = some 0
      ∧ first.2.timeline.zoomChanged = false
      ∧ redrawn.timeline.zoomOut = some 6 ∧ second.1.timeline.zoomOut = none
      ∧ second.2.timeline.zoomChanged = false := by
  decide +kernel

end Session
end GifEdit
