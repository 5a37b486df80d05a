/-
  GifEdit.Editor.Timeline
  ───────────────────────
  **THE TIMELINE: PLAYHEAD, TRIM HANDLES, ZOOM MARKERS.**

  A press latches one target, and that target owns every motion until the release,
  wherever the pointer goes.  Markers keep their order:

      trim start ≤ zoom-in,  zoom-in + gap ≤ zoom-out ≤ trim end

  and the trim keeps its least length where the clip is long enough.  Each
  operation says what it changed.
-/
import GifEdit.Editor.Gesture
import GifEdit.Edit.Trim
import GifEdit.Config.Basic

namespace GifEdit

variable {α : Type}

/-! ## §1. Tuning, track and targets. -/

/-- Tuning of the timeline. -/
structure TimelineTuning (α : Type) where
  markerHitRadius : α
  minTrimGap : α
  minZoomGap : α
  deriving Repr, DecidableEq

/-- The tuning that a configuration asks for; the zoom gap is clamped to its range. -/
def Interaction.timelineTuning [Scalar α] (i : Interaction α) : TimelineTuning α :=
  ⟨i.markerHitRadius, i.minTrimGap, Scalar.clamp i.minZoomGap 0.1 0.5⟩

/-- Where the track lies in pointer coordinates. -/
structure Track (α : Type) where
  left : α
  width : α
  deriving Repr, DecidableEq, Inhabited

/-- What a drag moves. -/
inductive DragTarget where
  | none
  | scrubber
  | trimStart
  | trimEnd
  | zoomIn
  | zoomOut
  deriving Repr, DecidableEq, Inhabited

/-- What an operation changed. -/
structure TimelineUpdate (α : Type) where
  /-- Where the preview should go. -/
  seek : Option α := .none
  trimChanged : Bool := false
  zoomChanged : Bool := false
  deriving Repr, DecidableEq, Inhabited

/-- Whether nothing changed. -/
def TimelineUpdate.isEmpty (u : TimelineUpdate α) : Bool :=
  u.seek.isNone && !u.trimChanged && !u.zoomChanged

/-! ## §2. State. -/

/-- The timeline of one clip. -/
structure Timeline (α : Type) where
  tuning : TimelineTuning α
  duration : α
  trimStart : α
  trimEnd : α
  zoomIn : Option α
  zoomOut : Option α
  playhead : α
  track : Track α
  drag : DragTarget
  deriving Repr, DecidableEq

/-- `value` clamped to `[lo, hi]`; if the bounds cross, `lo` wins. -/
def clampBetween [Scalar α] (value lo hi : α) : α := Scalar.max (Scalar.min value hi) lo

/-- Whether two optional times differ. -/
def differ [Scalar α] : Option α → Option α → Bool
  | .none, .none => false
  | some a, some b => !(a == b)
  | _, _ => true

namespace Timeline

variable [Scalar α]

/-- The timeline of a clip of which everything is kept. -/
def fresh (tuning : TimelineTuning α) (duration : α) (track : Track α) : Timeline α :=
  let duration := if Scalar.isFinite duration then Scalar.max duration (0 : α) else 0
  ⟨tuning, duration, 0, duration, .none, .none, 0, track, .none⟩

/-- The kept part. -/
def trimRange (t : Timeline α) : Except (EditError α) (TrimRange α) :=
  TrimRange.ofBounds t.trimStart t.trimEnd t.duration

/-- The zoom markers. -/
def zoomWindow (t : Timeline α) : ZoomWindow α := ⟨t.zoomIn, t.zoomOut⟩

/-- Moves the track on the screen. -/
def setTrack (t : Timeline α) (track : Track α) : Timeline α := { t with track := track }

/-! ## §3. Times and positions. -/

/-- The time under a pointer position. -/
def timeAt (t : Timeline α) (x : α) : α :=
  if t.track.width ≤ 0 then 0
  else Scalar.clamp ((x - t.track.left) / t.track.width) 0 1 * t.duration

/-- Where a time is drawn. -/
def positionOf (t : Timeline α) (time : α) : α :=
  if t.duration ≤ 0 then t.track.left
  else t.track.left + Scalar.clamp (time / t.duration) 0 1 * t.track.width

/-- Whether a press at `x` hits what is drawn for a time. -/
def isNear (t : Timeline α) (x time : α) : Bool :=
  Scalar.abs (x - t.positionOf time) ≤ t.tuning.markerHitRadius

/-- What a press at `x` would latch: zoom markers before trim handles, the later of
each pair first, and the scrubber where there is neither. -/
def hit (t : Timeline α) (x : α) : DragTarget :=
  let candidates :=
    [(DragTarget.zoomOut, t.zoomOut), (.zoomIn, t.zoomIn), (.trimEnd, some t.trimEnd),
      (.trimStart, some t.trimStart)]
  match candidates.find? (fun c => c.2.any (t.isNear x)) with
  | some c => c.1
  | .none => .scrubber

/-! ## §4. Commands. -/

/-- Moves the playhead, clamped to the clip. -/
def seek (t : Timeline α) (time : α) : Timeline α × TimelineUpdate α :=
  let playhead := clampBetween time 0 t.duration
  ({ t with playhead := playhead }, { seek := some playhead })

/-- Puts the zoom-in at a time, clamped to the kept part.  A zoom-out that would be
too close is dropped. -/
def setZoomIn (t : Timeline α) (time : α) : Timeline α × TimelineUpdate α :=
  let start := clampBetween time t.trimStart t.trimEnd
  let zoomOut := t.zoomOut.filter fun out => !(out < start + t.tuning.minZoomGap)
  ({ t with zoomIn := some start, zoomOut := zoomOut }, { zoomChanged := true })

/-- Puts the zoom-out at a time, if there is a zoom-in with room behind it. -/
def placeZoomOut (t : Timeline α) (time : α) : Timeline α × TimelineUpdate α :=
  match t.zoomIn with
  | .none => (t, {})
  | some start =>
      let lower := start + t.tuning.minZoomGap
      if t.trimEnd < lower then (t, {})
      else
        ({ t with zoomOut := some (clampBetween time lower t.trimEnd) }, { zoomChanged := true })

/-- Removes both zoom markers. -/
def clearZoom (t : Timeline α) : Timeline α × TimelineUpdate α :=
  ({ t with zoomIn := .none, zoomOut := .none },
    { zoomChanged := t.zoomIn.isSome || t.zoomOut.isSome })

/-- Pulls the zoom markers back inside the kept part; the flag says whether one moved. -/
def reclampZoom (t : Timeline α) : Timeline α × Bool :=
  let gap := t.tuning.minZoomGap
  let moved : Option α × Option α :=
    match t.zoomIn, t.zoomOut with
    | some start, some out =>
        if gap ≤ t.trimEnd - t.trimStart then
          let out := clampBetween out (t.trimStart + gap) t.trimEnd
          (some (clampBetween start t.trimStart (out - gap)), some out)
        else (some (clampBetween start t.trimStart t.trimEnd), .none)
    | some start, .none => (some (clampBetween start t.trimStart t.trimEnd), .none)
    | .none, _ => (.none, .none)
  ({ t with zoomIn := moved.1, zoomOut := moved.2 },
    differ t.zoomIn moved.1 || differ t.zoomOut moved.2)

/-- Takes trim and zoom markers of a saved edit. -/
def restore (t : Timeline α) (trim : TrimRange α) (zoom : ZoomWindow α) : Timeline α :=
  let start := clampBetween trim.start 0 t.duration
  let stop := clampBetween trim.stop start t.duration
  let zoomOut := if zoom.start.isSome then zoom.stop else .none
  let set :=
    { t with trimStart := start, trimEnd := stop, zoomIn := zoom.start, zoomOut := zoomOut }
  { set.reclampZoom.1 with drag := .none }

/-! ## §5. Drags. -/

/-- Moves the start of the kept part. -/
def setTrimStart (t : Timeline α) (start : α) : Timeline α × TimelineUpdate α :=
  let trimChanged := !(start == t.trimStart)
  let (clamped, zoomChanged) := { t with trimStart := start }.reclampZoom
  let (sought, update) := clamped.seek start
  (sought, { update with trimChanged := trimChanged, zoomChanged := zoomChanged })

/-- Moves the end of the kept part. -/
def setTrimEnd (t : Timeline α) (stop : α) : Timeline α × TimelineUpdate α :=
  let trimChanged := !(stop == t.trimEnd)
  let (clamped, zoomChanged) := { t with trimEnd := stop }.reclampZoom
  let (sought, update) := clamped.seek stop
  (sought, { update with trimChanged := trimChanged, zoomChanged := zoomChanged })

/-- A press: latches a target; the scrubber jumps to the pointer at once. -/
def down (t : Timeline α) (x : α) : Timeline α × TimelineUpdate α :=
  let latched := { t with drag := t.hit x }
  match latched.drag with
  | .scrubber => latched.seek (latched.timeAt x)
  | _ => (latched, {})

/-- A motion: moves what is latched.  Markers that were cleared stay cleared. -/
def move (t : Timeline α) (x : α) : Timeline α × TimelineUpdate α :=
  let time := t.timeAt x
  let gap := t.tuning.minZoomGap
  match t.drag with
  | .none => (t, {})
  | .scrubber => t.seek time
  | .trimStart =>
      t.setTrimStart (Scalar.max (Scalar.min time (t.trimEnd - t.tuning.minTrimGap)) (0 : α))
  | .trimEnd =>
      t.setTrimEnd (Scalar.min (Scalar.max time (t.trimStart + t.tuning.minTrimGap)) t.duration)
  | .zoomIn =>
      if t.zoomIn.isNone then (t, {})
      else
        let upper := match t.zoomOut with
          | some out => out - gap
          | .none => t.trimEnd
        let start := clampBetween time t.trimStart upper
        let (sought, update) := { t with zoomIn := some start }.seek start
        (sought, { update with zoomChanged := differ t.zoomIn (some start) })
  | .zoomOut =>
      match t.zoomIn, t.zoomOut with
      | some start, some _ =>
          let out := clampBetween time (start + gap) t.trimEnd
          let (sought, update) := { t with zoomOut := some out }.seek out
          (sought, { update with zoomChanged := differ t.zoomOut (some out) })
      | _, _ => (t, {})

/-- The end of a drag; markers stay where they are. -/
def release (t : Timeline α) : Timeline α := { t with drag := .none }

/-- Routes a pointer event. -/
def handle (t : Timeline α) (e : PointerEvent α) : Timeline α × TimelineUpdate α :=
  match e.phase with
  | .down => t.down e.x
  | .move => t.move e.x
  | .up | .leave => (t.release, {})

end Timeline
end GifEdit
