/-
  GifEdit.Proofs.Editor.Snapshot
  ──────────────────────────────
  **A SESSION CAN BE FROZEN AT ANY MOMENT.**

  A snapshot puts the parts of a session together and checks them like any other
  edit.  No check fails, whatever the user did before:

      crop     comes out of the box by clamping and rounding to even sides, and a box
               that is too small counts as none
      trim     keeps the least length, or all of a shorter clip
      zoom     fits the trim with the gap of the configuration, which is no smaller
               than the gap of edits; without a crop there is none

  An action does one thing to the surfaces, and the invariant needs to know only
  what it leaves alone and that the timeline, if it changes, changes by operations
  of its own (`act_follows`).

  Main result: `snapshot_always_accepted`, for every run of steps and resizes.
-/
import GifEdit.Editor.Session
import GifEdit.Proofs.Editor.Timeline
import GifEdit.Proofs.Geometry.Letterbox

namespace GifEdit

open Exact

/-! ## §1. The crop of a snapshot. -/

namespace Cropper

variable {α : Type} [Scalar α]

/-- **Whatever box was drawn, its region passes the check**, on any canvas. -/
theorem checkCrop_sourceRegion (c : Cropper α) :
    (Specification.checkCrop c.source c.sourceRegion : Except (EditError α) Unit) = .ok () := by
  unfold sourceRegion
  cases c.crop with
  | none => rfl
  | some b =>
      -- What is too small to be encoded is no crop, so it is not checked.
      by_cases hsmall : (b.toSource c.canvas c.source).isDegenerate = true
      · simp only [hsmall, if_true]
        rfl
      · have hfits := b.toSource_fitsWithin c.canvas c.source
        have heven := b.toSource_isEven c.canvas c.source
        simp [Specification.checkCrop, hsmall, hfits, heven]

theorem down_source (c : Cropper α) (p : Point α) : (c.down p).source = c.source := by
  unfold down
  split <;> rfl

theorem move_source (c : Cropper α) (p : Point α) : (c.move p).source = c.source := by
  unfold move
  split <;> rfl

theorem release_source (c : Cropper α) (playhead : α) :
    (c.release playhead).1.source = c.source := by
  unfold release
  split
  · rfl
  · dsimp only
    split
    · rfl
    · split <;> rfl

/-- Gestures happen on the canvas; the video stays. -/
theorem handle_source (c : Cropper α) (e : PointerEvent α) (playhead : α) :
    (c.handle e playhead).1.source = c.source := by
  unfold handle
  cases e.phase with
  | down => exact c.down_source ⟨e.x, e.y⟩
  | move => exact c.move_source ⟨e.x, e.y⟩
  | up => exact c.release_source playhead
  | leave => exact c.release_source playhead

end Cropper

/-! ## §2. Defaults of a configuration. -/

/-- The backdrop of a configuration is checked before it is used. -/
theorem BackgroundDefaults.check_of_settings {α : Type} [Scalar α] {d : BackgroundDefaults α}
    {background : Background α} (h : d.settings = .ok background) : background.check = .ok () := by
  unfold settings at h
  split at h
  · exact nomatch h
  · dsimp only at h
    split at h
    · exact nomatch h
    · rename_i hcheck
      obtain rfl := Except.ok.inj h
      exact hcheck

/-! ## §3. Starts and runs of a session. -/

/-- Something that happens to a session. -/
inductive SessionAction (α : Type) where
  | step (step : Step α)
  | resize (container : Size α)
  deriving Repr, DecidableEq

namespace Session

variable {α : Type} [Scalar α]

/-- The session after an action. -/
def act (s : Session α) : SessionAction α → Session α
  | .step step => (s.apply step).1
  | .resize container => s.resizeCanvas container

/-- The session after actions in a row. -/
def run (s : Session α) (actions : List (SessionAction α)) : Session α := actions.foldl act s

/-- The edit that a session shows. -/
def edit (s : Session α) : Specification α where
  source := s.source
  trim := ⟨s.timeline.trimStart, s.timeline.trimEnd⟩
  crop := s.crop.sourceRegion
  zoom := if s.crop.sourceRegion.isSome then s.timeline.zoomWindow else ZoomWindow.none
  exportSettings := s.exportSettings
  background := s.background

/-- A session that shows a valid edit can be frozen into it. -/
theorem snapshot_eq {s : Session α} (hduration : s.timeline.duration = s.source.duration)
    (h : s.edit.Accepted) : s.snapshot = .ok s.edit := by
  have htrim : s.timeline.trimRange = .ok s.edit.trim := by
    unfold Timeline.trimRange
    rw [hduration]
    exact TrimRange.ofBounds_eq_ok.mpr ⟨h.trim, rfl⟩
  unfold snapshot
  rw [htrim]
  exact Specification.ofParts_of_accepted h

/-- What a session starts with. -/
theorem start_eq_ok {source : Clip α} {config : Config α} {container : Size α} {track : Track α}
    {s : Session α} : start source config container track = .ok s ↔
      source.check = .ok () ∧ ∃ settings background,
        (config.exportDefaults.settings : Except (SessionError α) ExportSettings) = .ok settings
        ∧ config.background.settings = .ok background
        ∧ s = ⟨source, Cropper.fresh config.interaction.cropTuning source.frame
            (container.fit source.frame),
          Timeline.fresh config.interaction.timelineTuning source.duration track,
          settings, background⟩ := by
  unfold start
  cases source.check with
  | error e => simp
  | ok =>
      simp only [bind_eq_ok, true_and]
      constructor
      · rintro ⟨settings, hsettings, background, hbackground, hs⟩
        exact ⟨settings, background, hsettings, hbackground, (Except.ok.inj hs).symm⟩
      · rintro ⟨settings, background, hsettings, hbackground, rfl⟩
        exact ⟨settings, hsettings, background, hbackground, rfl⟩

/-! ## §4. What an action leaves alone. -/

/-- `s'` shows the same video before the same backdrop, and its timeline came about by
operations on the timeline of `s`, none of them a restore. -/
structure Follows (s s' : Session α) : Prop where
  source : s'.source = s.source
  frame : s'.crop.source = s.crop.source
  background : s'.background = s.background
  timeline : ∃ operations : List (TimelineAction α),
    s'.timeline = s.timeline.run operations ∧ ∀ a ∈ operations, a.isRestore = false

/-- A change of the canvas and the settings alone. -/
theorem follows_of_timeline_eq {s s' : Session α} (hsource : s'.source = s.source)
    (hframe : s'.crop.source = s.crop.source) (hbackground : s'.background = s.background)
    (htimeline : s'.timeline = s.timeline) : s.Follows s' :=
  ⟨hsource, hframe, hbackground, [], htimeline, fun _ h => nomatch h⟩

/-- One operation on the timeline, and perhaps a change of the canvas. -/
theorem follows_of_timeline_act {s s' : Session α} (a : TimelineAction α)
    (ha : a.isRestore = false) (hsource : s'.source = s.source)
    (hframe : s'.crop.source = s.crop.source) (hbackground : s'.background = s.background)
    (htimeline : s'.timeline = s.timeline.act a) : s.Follows s' := by
  refine ⟨hsource, hframe, hbackground, [a], htimeline, ?_⟩
  intro b hb
  rw [List.mem_singleton.mp hb]
  exact ha

theorem canvasEvent_follows (s : Session α) (e : PointerEvent α) :
    s.Follows (s.canvasEvent e).1 := by
  have hframe := s.crop.handle_source e s.timeline.playhead
  unfold canvasEvent
  -- The timeline hears of the canvas only where a gesture commits.
  cases hcommit : (s.crop.handle e s.timeline.playhead).2 with
  | none => exact follows_of_timeline_eq rfl hframe rfl (by simp only [hcommit])
  | some commit =>
      exact follows_of_timeline_act (.setZoomIn commit.zoomIn) rfl rfl hframe rfl
        (by simp only [hcommit]; rfl)

theorem markZoomIn_follows (s : Session α) : s.Follows s.markZoomIn.1 := by
  unfold markZoomIn Cropper.markZoomIn
  by_cases hcrop : s.crop.crop.isSome = true
  · simp only [hcrop, if_true]
    exact follows_of_timeline_act (.setZoomIn s.timeline.playhead) rfl rfl rfl rfl rfl
  · simp only [hcrop]
    exact follows_of_timeline_eq rfl rfl rfl rfl

/-- **One action**: a step of any kind, or a resize. -/
theorem act_follows (s : Session α) (a : SessionAction α) : s.Follows (s.act a) := by
  cases a with
  | resize container => exact follows_of_timeline_eq rfl rfl rfl rfl
  | step step =>
      cases step with
      | canvas phase x y => exact s.canvasEvent_follows ⟨phase, x, y⟩
      | timeline phase x =>
          exact follows_of_timeline_act (.handle ⟨phase, x, 0⟩) rfl rfl rfl rfl rfl
      | seek t => exact follows_of_timeline_act (.seek t) rfl rfl rfl rfl rfl
      | markZoomIn => exact s.markZoomIn_follows
      | placeZoomOut =>
          exact follows_of_timeline_act (.placeZoomOut s.timeline.playhead) rfl rfl rfl rfl rfl
      | clearCrop => exact follows_of_timeline_act .clearZoom rfl rfl rfl rfl rfl
      | preset quality => exact follows_of_timeline_eq rfl rfl rfl rfl

/-! ## §5. The invariant. -/

/-- The clip and the backdrop passed their checks, both surfaces are on this clip, and
the markers are in order in a trim that kept its least length. -/
structure Sound (gap trimGap d : ℚ) (s : Session Exact) : Prop where
  source : s.source.check = .ok ()
  duration : s.source.duration = rational d
  positive : 0 < d
  frame : s.crop.source = s.source.frame
  background : s.background.check = .ok ()
  timeline : ∃ p a b, s.timeline.Ordered gap trimGap d p a b ∧ min trimGap d ≤ b - a

variable {gap trimGap d : ℚ} {s s' : Session Exact}

/-- What follows a sound session is sound. -/
theorem Sound.of_follows (h : s.Sound gap trimGap d) (hs : s.Follows s') :
    s'.Sound gap trimGap d := by
  obtain ⟨p, a, b, hordered, hlen⟩ := h.timeline
  obtain ⟨operations, htimeline, hkept⟩ := hs.timeline
  obtain ⟨p', a', b', hordered', hkeep⟩ := Timeline.ordered_run operations hordered
  constructor
  · rw [hs.source]
    exact h.source
  · rw [hs.source]
    exact h.duration
  · exact h.positive
  · rw [hs.frame, hs.source]
    exact h.frame
  · rw [hs.background]
    exact h.background
  · rw [htimeline]
    exact ⟨p', a', b', hordered', (le_min (min_le_left _ _) hlen).trans (hkeep hkept)⟩

/-- **A run keeps a session sound.** -/
theorem sound_run (actions : List (SessionAction Exact)) (h : s.Sound gap trimGap d) :
    (s.run actions).Sound gap trimGap d := by
  induction actions generalizing s with
  | nil => exact h
  | cons a actions ih => exact ih (h.of_follows (s.act_follows a))

/-- **A session that starts is sound.** -/
theorem sound_start {source : Clip Exact} {config : Config Exact} {container : Size Exact}
    {track : Track Exact} (hgaps : config.interaction.timelineTuning.HasGaps gap trimGap)
    (hstart : start source config container track = .ok s) : ∃ d, s.Sound gap trimGap d := by
  obtain ⟨hsource, settings, background, -, hbackground, rfl⟩ := start_eq_ok.mp hstart
  obtain ⟨d, hd, hpositive⟩ := Clip.exists_duration hsource
  -- The defaults are checked before the session begins, and it never touches them again.
  refine ⟨d, hsource, hd, hpositive, rfl, BackgroundDefaults.check_of_settings hbackground,
    0, 0, d, ?_, ?_⟩
  · dsimp only
    rw [hd]
    exact Timeline.ordered_fresh hgaps hpositive.le track
  · rw [sub_zero]
    exact min_le_right _ _

/-! ## §6. Snapshots. -/

/-- The checks of an edit, of what a session shows: the gap of the configuration and the
bounds of the trim are stricter than the ones that edits are checked against. -/
theorem accepted_edit {a b : ℚ} (hsource : s.source.check = .ok ())
    (hduration : s.source.duration = rational d) (hframe : s.crop.source = s.source.frame)
    (hbackground : s.background.check = .ok ()) (hstart : s.timeline.trimStart = rational a)
    (hstop : s.timeline.trimEnd = rational b) (htrim : 0 ≤ a ∧ a < b ∧ b ≤ d)
    (hgap : 1 / 10 ≤ gap) (hzoom : s.timeline.zoomWindow.Fits gap a b) : s.edit.Accepted := by
  have htrim_eq : s.edit.trim = ⟨rational a, rational b⟩ := by
    show TrimRange.mk s.timeline.trimStart s.timeline.trimEnd = _
    rw [hstart, hstop]
  constructor
  · exact hsource
  · show TrimRange.isValid s.timeline.trimStart s.timeline.trimEnd s.source.duration = true
    rw [hstart, hstop, hduration, TrimRange.isValid_rational]
    exact ⟨htrim.1, htrim.2.1, by linarith⟩
  · show Specification.checkCrop s.source.frame s.crop.sourceRegion = _
    rw [← hframe]
    exact s.crop.checkCrop_sourceRegion
  · rw [htrim_eq, ZoomWindow.check_iff_fits]
    unfold edit
    -- The markers are only shown with a crop, which they need.
    by_cases hcrop : s.crop.sourceRegion.isSome = true
    · rw [if_pos hcrop]
      exact ⟨hzoom.mono (by linarith) (by linarith) (by linarith), fun _ => hcrop⟩
    · rw [if_neg hcrop]
      exact ⟨.unset, fun hzoom => nomatch hzoom⟩
  · exact hbackground

/-- The invariant meets every check of an edit. -/
theorem Sound.accepted (h : s.Sound gap trimGap d) : s.edit.Accepted := by
  obtain ⟨p, a, b, hordered, hlen⟩ := h.timeline
  obtain ⟨ha, hab, hbd⟩ := hordered.trim_mem
  -- The trim keeps its least length or the whole clip, and neither is empty.
  have hlong : 0 < min trimGap d := lt_min hordered.gaps.trimGap_pos h.positive
  exact accepted_edit h.source h.duration h.frame h.background hordered.start hordered.stop
    ⟨ha, by linarith, hbd⟩ hordered.gaps.least hordered.zoom

/-- **EVERY STATE OF A SESSION CAN BE FROZEN**: after any steps and resizes, the edit that
a session shows passes all checks. -/
theorem snapshot_always_accepted (source : Clip Exact) (config : Config Exact)
    (container : Size Exact) (track : Track Exact) (s : Session Exact)
    (actions : List (SessionAction Exact)) (hcheck : config.check = .ok ())
    (hfinite : ∀ x ∈ config.interaction.numbers, Scalar.isFinite x = true)
    (hstart : start source config container track = .ok s) :
    (s.run actions).snapshot = .ok (s.run actions).edit := by
  obtain ⟨gap, trimGap, hgaps⟩ := Config.hasGaps hcheck hfinite
  obtain ⟨d, hs⟩ := sound_start hgaps hstart
  have hrun := sound_run actions hs
  obtain ⟨p, a, b, hordered, -⟩ := hrun.timeline
  have hduration : (s.run actions).timeline.duration = (s.run actions).source.duration := by
    rw [hordered.duration, hrun.duration]
  exact snapshot_eq hduration hrun.accepted

/-- A crop is drawn at three seconds while the canvas is resized, and then the trim end is
dragged over both markers. -/
theorem snapshot_always_accepted_drawn :
    let source : Clip Exact := ⟨"clip.mp4", 10, 640, 360⟩
    let config : Config Exact := {}
    let container : Size Exact := ⟨320, 200⟩
    let s : Session Exact := {
      source := source
      crop := Cropper.fresh config.interaction.cropTuning source.frame (container.fit source.frame)
      timeline := Timeline.fresh config.interaction.timelineTuning 10 ⟨0, 1000⟩
      exportSettings := .standard
      background := .standard }
    let done := s.run
      [.step (.seek 3), .step (.canvas .down 40 30), .step (.canvas .move 120 90),
        .resize ⟨640, 400⟩, .step (.canvas .up 240 180), .step (.seek 6), .step .placeZoomOut,
        .step (.timeline .down 1000), .step (.timeline .move 200)]
    start source config container ⟨0, 1000⟩ = .ok s ∧ done.snapshot = .ok done.edit
      ∧ done.edit.trim = ⟨0, 2⟩ ∧ done.edit.crop = some ⟨80, 60, 160, 90⟩
      ∧ done.edit.zoom = ⟨some 1.9, some 2⟩ := by
  intro source config container s done
  have hcheck : config.check = .ok () := by decide +kernel
  have hfinite : ∀ x ∈ config.interaction.numbers, Scalar.isFinite x = true := by decide
  have hstart : start source config container ⟨0, 1000⟩ = .ok s := by decide +kernel
  refine ⟨hstart, ?_, by decide +kernel, by decide +kernel, by decide +kernel⟩
  exact snapshot_always_accepted source config container ⟨0, 1000⟩ s _ hcheck hfinite hstart

end Session
end GifEdit
