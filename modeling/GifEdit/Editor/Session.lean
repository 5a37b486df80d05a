/-
  GifEdit.Editor.Session
  ──────────────────────
  **AN EDITING SESSION.**

  A session owns the two surfaces and the settings of one clip and keeps them
  consistent: a committed crop places the zoom-in marker, and clearing the crop
  removes both markers.  A SNAPSHOT freezes the current state into a checked edit.
-/
import GifEdit.Editor.Cropper
import GifEdit.Editor.Timeline
import GifEdit.Edit.Specification

namespace GifEdit

variable {α : Type} [Scalar α]

/-! ## §1. Settings from a configuration. -/

/-- Why a session could not start, or a state could not be frozen. -/
inductive SessionError (α : Type) where
  /-- A rule of edits is broken. -/
  | edit (cause : EditError α)
  /-- The configuration names no color. -/
  | config (cause : EditError α)
  deriving Repr, DecidableEq

/-- The message of a session error. -/
def SessionError.message [Legible α] : SessionError α → String
  | .edit cause => "Invalid edit: " ++ cause.message
  | .config cause => "Invalid configuration: " ++ cause.message

/-- Export settings of new edits.  Values that agree with the standard ones keep
their label. -/
def ExportDefaults.settings (d : ExportDefaults) : Except (SessionError α) ExportSettings :=
  let made : Except (EditError α) ExportSettings := do
    let loopCount ← LoopCount.ofInt d.loopCount
    ExportSettings.ofValues d.fps d.width d.colors d.dither loopCount
  match made with
  | .error e => .error (.edit e)
  | .ok settings =>
      if settings.sameValues .standard then .ok .standard else .ok settings

/-- The backdrop of new edits. -/
def BackgroundDefaults.settings (b : BackgroundDefaults α) :
    Except (SessionError α) (Background α) :=
  match (Color.ofText b.color : Except (EditError α) Color) with
  | .error e => .error (.config e)
  | .ok color =>
      let background : Background α := ⟨b.enabled, color, b.padding, b.borderRadius⟩
      match background.check with
      | .error e => .error (.edit e)
      | .ok () => .ok background

/-! ## §2. Sessions. -/

/-- The editing state of one clip. -/
structure Session (α : Type) where
  source : Clip α
  crop : Cropper α
  timeline : Timeline α
  exportSettings : ExportSettings
  background : Background α
  deriving Repr, DecidableEq

/-- What a step brought about. -/
structure StepOutcome (α : Type) where
  commit : Option (CropCommit α) := none
  timeline : TimelineUpdate α := {}
  deriving Repr, DecidableEq

namespace Session

/-- A session on a clip, with the defaults of a configuration. -/
def start (source : Clip α) (config : Config α) (container : Size α) (track : Track α) :
    Except (SessionError α) (Session α) :=
  match source.check with
  | .error e => .error (.edit e)
  | .ok () => do
      let settings ← config.exportDefaults.settings
      let background ← config.background.settings
      return {
        source := source
        crop := Cropper.fresh config.interaction.cropTuning source.frame
          (container.fit source.frame)
        timeline := Timeline.fresh config.interaction.timelineTuning source.duration track
        exportSettings := settings
        background := background }

/-- A session that continues a saved edit. -/
def resume (edit : Specification α) (config : Config α) (container : Size α) (track : Track α) :
    Except (SessionError α) (Session α) := do
  let s ← start edit.source config container track
  return { s with
    exportSettings := edit.exportSettings
    background := edit.background
    timeline := s.timeline.restore edit.trim edit.zoom
    crop := match edit.crop with
      | some r => s.crop.restore r edit.zoom.start
      | none => s.crop }

/-! ## §3. Steps. -/

/-- A pointer event on the canvas; a commit places the zoom-in marker. -/
def canvasEvent (s : Session α) (e : PointerEvent α) : Session α × Option (CropCommit α) :=
  let (crop, commit) := s.crop.handle e s.timeline.playhead
  let timeline := match commit with
    | some c => (s.timeline.setZoomIn c.zoomIn).1
    | none => s.timeline
  ({ s with crop := crop, timeline := timeline }, commit)

/-- Applies an operation to the timeline. -/
def onTimeline (s : Session α) (result : Timeline α × TimelineUpdate α) :
    Session α × TimelineUpdate α :=
  ({ s with timeline := result.1 }, result.2)

/-- Fits the canvas into a new container. -/
def resizeCanvas (s : Session α) (container : Size α) : Session α :=
  { s with crop := s.crop.setCanvas (container.fit s.source.frame) }

/-- Puts the zoom-in marker at the playhead, if there is a crop. -/
def markZoomIn (s : Session α) : Session α × TimelineUpdate α :=
  let playhead := s.timeline.playhead
  match s.crop.markZoomIn playhead with
  | (crop, true) => { s with crop := crop }.onTimeline (s.timeline.setZoomIn playhead)
  | (_, false) => (s, {})

/-- Removes the crop and both zoom markers. -/
def clearCrop (s : Session α) : Session α × TimelineUpdate α :=
  { s with crop := s.crop.clear }.onTimeline s.timeline.clearZoom

/-- Applies a recorded step. -/
def apply (s : Session α) (step : Step α) : Session α × StepOutcome α :=
  match step with
  | .canvas phase x y =>
      let (s, commit) := s.canvasEvent ⟨phase, x, y⟩
      (s, { commit := commit })
  | .timeline phase x => timed (s.onTimeline (s.timeline.handle ⟨phase, x, 0⟩))
  | .seek t => timed (s.onTimeline (s.timeline.seek t))
  | .markZoomIn => timed s.markZoomIn
  | .placeZoomOut => timed (s.onTimeline (s.timeline.placeZoomOut s.timeline.playhead))
  | .clearCrop => timed s.clearCrop
  | .preset quality => ({ s with exportSettings := s.exportSettings.applyQuality quality }, {})
where
  /-- The outcome of a step that touches only the timeline. -/
  timed (result : Session α × TimelineUpdate α) : Session α × StepOutcome α :=
    (result.1, { timeline := result.2 })

/-- Applies recorded steps in order and collects their outcomes. -/
def applyAll (s : Session α) : List (Step α) → Session α × List (StepOutcome α)
  | [] => (s, [])
  | step :: steps =>
      let (s, outcome) := s.apply step
      let (s, outcomes) := s.applyAll steps
      (s, outcome :: outcomes)

/-! ## §4. Snapshots. -/

/-- The current state as a checked edit; without a usable crop there is no zoom. -/
def snapshot (s : Session α) : Except (EditError α) (Specification α) := do
  let crop := s.crop.sourceRegion
  let zoom := if crop.isSome then s.timeline.zoomWindow else ZoomWindow.none
  let trim ← s.timeline.trimRange
  Specification.ofParts s.source trim crop zoom s.exportSettings s.background

end Session
end GifEdit
