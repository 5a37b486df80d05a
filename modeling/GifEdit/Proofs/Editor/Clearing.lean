/-
  GifEdit.Proofs.Editor.Clearing
  ──────────────────────────────
  **WHAT WAS CLEARED STAYS CLEARED.**

  Clearing the crop takes the box and the markers off both surfaces.  Only a press on the
  canvas makes a new box, and each way to a marker is barred without one:

      mark the zoom-in      asks the canvas, which has no box
      place the zoom-out    asks for a zoom-in
      drag a marker         a drag keeps its latch when its marker goes, and then moves
                            nothing
      drag the trim         pulls in the markers there are

  So nothing but an event on the canvas brings anything back (`cleared_act`), whatever was
  going on at the time of the clear.

  Main result: `cleared_until_canvas_event`.
-/
import GifEdit.Proofs.Editor.Markers

namespace GifEdit

variable {α : Type} [Scalar α]

/-! ## §1. The timeline. -/

namespace Timeline

/-- The timeline has no marker. -/
structure Unmarked (t : Timeline α) : Prop where
  zoomIn : t.zoomIn = none
  zoomOut : t.zoomOut = none

variable {t : Timeline α}

omit [Scalar α] in
theorem unmarked_clearZoom (t : Timeline α) : t.clearZoom.1.Unmarked := ⟨rfl, rfl⟩

/-- Without a zoom-in there is nothing to pull in, and a zoom-out goes with it. -/
theorem unmarked_reclampZoom (h : t.zoomIn = none) : t.reclampZoom.1.Unmarked := by
  unfold reclampZoom
  simp only [h]
  exact ⟨rfl, rfl⟩

theorem unmarked_seek (h : t.Unmarked) (time : α) : (t.seek time).1.Unmarked :=
  ⟨h.zoomIn, h.zoomOut⟩

theorem unmarked_placeZoomOut (h : t.Unmarked) (time : α) : (t.placeZoomOut time).1.Unmarked := by
  unfold placeZoomOut
  simp only [h.zoomIn]
  exact h

theorem unmarked_setTrimStart (h : t.Unmarked) (start : α) : (t.setTrimStart start).1.Unmarked :=
  unmarked_seek (unmarked_reclampZoom (t := { t with trimStart := start }) h.zoomIn) start

theorem unmarked_setTrimEnd (h : t.Unmarked) (stop : α) : (t.setTrimEnd stop).1.Unmarked :=
  unmarked_seek (unmarked_reclampZoom (t := { t with trimEnd := stop }) h.zoomIn) stop

/-- A drag that is latched on a marker that is gone moves nothing. -/
theorem unmarked_move (h : t.Unmarked) (x : α) : (t.move x).1.Unmarked := by
  unfold move
  cases t.drag with
  | none => exact h
  | scrubber => exact unmarked_seek h _
  | trimStart => exact unmarked_setTrimStart h _
  | trimEnd => exact unmarked_setTrimEnd h _
  | zoomIn =>
      simp only [h.zoomIn]
      exact h
  | zoomOut =>
      simp only [h.zoomIn]
      exact h

theorem unmarked_down (h : t.Unmarked) (x : α) : (t.down x).1.Unmarked := by
  unfold down
  dsimp only
  split <;> exact ⟨h.zoomIn, h.zoomOut⟩

/-- **One event on the timeline.** -/
theorem unmarked_handle (h : t.Unmarked) (e : PointerEvent α) : (t.handle e).1.Unmarked := by
  unfold handle
  cases e.phase with
  | down => exact unmarked_down h e.x
  | move => exact unmarked_move h e.x
  | up => exact ⟨h.zoomIn, h.zoomOut⟩
  | leave => exact ⟨h.zoomIn, h.zoomOut⟩

end Timeline

/-! ## §2. Sessions. -/

/-- Whether something happens away from the canvas: any step but an event on it, or a
resize. -/
def SessionAction.isOffCanvas : SessionAction α → Bool
  | .step (.canvas _ _ _) => false
  | .step _ | .resize _ => true

namespace Session

/-- Neither surface shows a crop or a marker. -/
structure Cleared (s : Session α) : Prop where
  crop : s.crop.crop = none
  cropZoom : s.crop.zoomIn = none
  timeline : s.timeline.Unmarked

variable {s : Session α}

omit [Scalar α] in
/-- A clear takes all of it away, in the middle of a gesture too. -/
theorem cleared_clearCrop (s : Session α) : s.clearCrop.1.Cleared :=
  ⟨rfl, rfl, s.timeline.unmarked_clearZoom⟩

/-- The zoom-in is not marked without a crop. -/
theorem markZoomIn_of_crop_eq_none (h : s.crop.crop = none) : s.markZoomIn.1 = s := by
  unfold markZoomIn Cropper.markZoomIn
  simp only [h]
  rfl

/-- **One action** away from the canvas. -/
theorem cleared_act (h : s.Cleared) (action : SessionAction α)
    (hoff : action.isOffCanvas = true) : (s.act action).Cleared := by
  cases action with
  | resize container =>
      refine ⟨?_, h.cropZoom, h.timeline⟩
      show (s.crop.setCanvas (container.fit s.source.frame)).crop = none
      unfold Cropper.setCanvas
      simp only [h.crop]
  | step step =>
      -- Of all steps only one on the canvas can make a box.
      cases step with
      | canvas phase x y => exact nomatch hoff
      | timeline phase x =>
          exact ⟨h.crop, h.cropZoom, Timeline.unmarked_handle h.timeline ⟨phase, x, 0⟩⟩
      | seek t => exact ⟨h.crop, h.cropZoom, Timeline.unmarked_seek h.timeline t⟩
      | markZoomIn =>
          show s.markZoomIn.1.Cleared
          rw [markZoomIn_of_crop_eq_none h.crop]
          exact h
      | placeZoomOut =>
          exact ⟨h.crop, h.cropZoom, Timeline.unmarked_placeZoomOut h.timeline _⟩
      | clearCrop => exact s.cleared_clearCrop
      | preset quality => exact ⟨h.crop, h.cropZoom, h.timeline⟩

/-- **A run of actions** away from the canvas. -/
theorem cleared_run (actions : List (SessionAction α)) (h : s.Cleared)
    (hoff : ∀ action ∈ actions, action.isOffCanvas = true) : (s.run actions).Cleared := by
  induction actions generalizing s with
  | nil => exact h
  | cons action actions ih =>
      have hfirst := cleared_act h action (hoff action List.mem_cons_self)
      exact ih hfirst fun a ha => hoff a (List.mem_cons_of_mem action ha)

/-- What is saved of a cleared session has no crop and no zoom. -/
theorem Cleared.snapshot (h : s.Cleared) {edit : Specification α}
    (hedit : s.snapshot = .ok edit) : edit.crop = none ∧ edit.zoom = ZoomWindow.none := by
  have hregion : s.crop.sourceRegion = none := by
    unfold Cropper.sourceRegion
    simp only [h.crop]
  unfold Session.snapshot at hedit
  rw [hregion] at hedit
  obtain ⟨trim, -, hparts⟩ := bind_eq_ok.mp hedit
  rw [Specification.eq_of_ofParts hparts]
  exact ⟨rfl, rfl⟩

/-- **A CLEARED CROP AND ITS MARKERS DO NOT COME BACK** before an event on the canvas: not
in any state of a session, reached in whatever way, and not by any steps and resizes.  An
edit that is saved then has no crop and no zoom. -/
theorem cleared_until_canvas_event (s : Session α) (actions : List (SessionAction α))
    (hoff : ∀ action ∈ actions, action.isOffCanvas = true) :
    let t := (s.act (.step .clearCrop)).run actions
    t.crop.crop = none ∧ t.crop.zoomIn = none ∧ t.timeline.zoomIn = none
      ∧ t.timeline.zoomOut = none
      ∧ ∀ edit, t.snapshot = .ok edit → edit.crop = none ∧ edit.zoom = ZoomWindow.none := by
  intro t
  have h : t.Cleared := cleared_run actions s.cleared_clearCrop hoff
  exact ⟨h.crop, h.cropZoom, h.timeline.zoomIn, h.timeline.zoomOut, fun _ => h.snapshot⟩

/-- A saved edit is continued, its zoom-out is latched and dragged, and the crop is cleared
under the drag, which goes on; then the playhead is moved, both markers are asked for, and
the trim end is dragged over the place of the zoom. -/
theorem cleared_until_canvas_event_dragged :
    let source : Clip Exact := ⟨"clip.mp4", 10, 640, 360⟩
    let edit : Specification Exact :=
      ⟨source, ⟨0, 10⟩, some ⟨100, 100, 160, 90⟩, ⟨some 3, some 6⟩, .standard, .standard⟩
    let config : Config Exact := {}
    let container : Size Exact := ⟨640, 360⟩
    let resumed : Session Exact := {
      source := source
      crop := (Cropper.fresh config.interaction.cropTuning source.frame
        (container.fit source.frame)).restore ⟨100, 100, 160, 90⟩ (some 3)
      timeline := (Timeline.fresh config.interaction.timelineTuning 10 ⟨0, 1000⟩).restore
        edit.trim edit.zoom
      exportSettings := .standard
      background := .standard }
    let s := resumed.run [.step (.timeline .down 600), .step (.timeline .move 700)]
    let actions : List (SessionAction Exact) :=
      [.step (.timeline .move 800), .step (.timeline .up 800), .step (.seek 4),
        .step .markZoomIn, .step .placeZoomOut, .resize ⟨320, 180⟩,
        .step (.timeline .down 1000), .step (.timeline .move 200)]
    let t := (s.act (.step .clearCrop)).run actions
    resume edit config container ⟨0, 1000⟩ = .ok resumed
      ∧ s.timeline.drag = .zoomOut ∧ s.timeline.zoomOut = some 7 ∧ s.crop.crop.isSome = true
      ∧ t.timeline.trimEnd = 2 ∧ t.crop.crop = none ∧ t.crop.zoomIn = none
      ∧ t.timeline.zoomIn = none ∧ t.timeline.zoomOut = none
      ∧ t.snapshot = .ok t.edit ∧ t.edit.crop = none ∧ t.edit.zoom = ZoomWindow.none := by
  intro source edit config container resumed s actions t
  have hoff : ∀ action ∈ actions, action.isOffCanvas = true := by decide
  have hsaved : t.snapshot = .ok t.edit := by decide +kernel
  obtain ⟨hcrop, hmarked, hin, hout, hedit⟩ := cleared_until_canvas_event s actions hoff
  obtain ⟨hnone, hempty⟩ := hedit t.edit hsaved
  exact ⟨by decide +kernel, by decide +kernel, by decide +kernel, by decide +kernel,
    by decide +kernel, hcrop, hmarked, hin, hout, hsaved, hnone, hempty⟩

end Session
end GifEdit
