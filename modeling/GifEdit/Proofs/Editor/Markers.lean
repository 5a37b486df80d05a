/-
  GifEdit.Proofs.Editor.Markers
  ─────────────────────────────
  **A ZOOM-IN NEEDS A CROP TO ZOOM TO.**

  Both surfaces hold a zoom-in: the canvas the time of the last commit or mark, the
  timeline the marker that can be dragged.  A session sets both or neither, so one is there
  exactly if the other is.

  That there is a crop as well is harder to keep, because a gesture may still be undone.
  A box that is being drawn counts as a crop, and the zoom-in can be marked on it; if the
  box is then too small, it goes and the zoom-in stays.  This happens to the FIRST box
  alone: any later one leaves a box behind, wherever its gesture ends.  So the invariant is
  about the crop that is left if nothing is committed,

      zoom-in set  →  there is a crop after undoing the gesture

  and every step keeps it but a mark on the first box.

  Main result: `zoom_needs_crop`, for every run of steps and resizes.
-/
import GifEdit.Proofs.Editor.Cropper
import GifEdit.Proofs.Editor.Gestures

namespace GifEdit

variable {α : Type}

/-! ## §1. Markers on the timeline. -/

namespace Timeline

variable [Scalar α] (t : Timeline α)

/-- Pulling markers into the trim never drops the zoom-in. -/
theorem reclampZoom_isSome : t.reclampZoom.1.zoomIn.isSome = t.zoomIn.isSome := by
  unfold reclampZoom
  cases t.zoomIn with
  | none => rfl
  | some start =>
      cases t.zoomOut with
      | none => rfl
      | some out =>
          dsimp only
          split <;> rfl

/-- A drag moves a zoom-in that is there, and makes none. -/
theorem move_isSome (x : α) : (t.move x).1.zoomIn.isSome = t.zoomIn.isSome := by
  unfold move
  cases t.drag with
  | none => rfl
  | scrubber => rfl
  | trimStart => exact reclampZoom_isSome _
  | trimEnd => exact reclampZoom_isSome _
  | zoomIn =>
      cases hin : t.zoomIn with
      | none => exact congrArg Option.isSome hin
      | some start => rfl
  | zoomOut =>
      cases hin : t.zoomIn with
      | none => exact congrArg Option.isSome hin
      | some start =>
          cases t.zoomOut with
          | none => exact congrArg Option.isSome hin
          | some out => rfl

/-- A press moves no marker. -/
theorem down_zoomIn (x : α) : (t.down x).1.zoomIn = t.zoomIn := by
  unfold down
  dsimp only
  split <;> rfl

/-- No event on the timeline sets or clears the zoom-in. -/
theorem handle_isSome (e : PointerEvent α) :
    (t.handle e).1.zoomIn.isSome = t.zoomIn.isSome := by
  unfold handle
  cases e.phase with
  | down => exact congrArg Option.isSome (t.down_zoomIn e.x)
  | move => exact t.move_isSome e.x
  | up => rfl
  | leave => rfl

/-- A zoom-out is put behind the zoom-in, where it is. -/
theorem placeZoomOut_zoomIn (time : α) : (t.placeZoomOut time).1.zoomIn = t.zoomIn := by
  unfold placeZoomOut
  cases hin : t.zoomIn with
  | none => exact hin
  | some start =>
      dsimp only
      split
      · exact hin
      · rfl

end Timeline

/-! ## §2. Boxes on the canvas. -/

namespace CropMode

/-- Whether the gesture draws a box where there was none. -/
def drawsFirst : CropMode α → Bool
  | .drawing _ none => true
  | .drawing _ (some _) | .idle | .resizing _ _ | .moving _ => false

/-- Any other gesture leaves a box, if there is one. -/
theorem restored_isSome {m : CropMode α} (hm : m.drawsFirst = false) {crop : Option (Box α)}
    (hcrop : crop.isSome = true) : (m.restored crop).isSome = true := by
  cases m with
  | drawing anchor previous =>
      cases previous with
      | none => exact nomatch hm
      | some b => rfl
  | idle => exact hcrop
  | resizing handle anchor => exact hcrop
  | moving last => exact hcrop

end CropMode

namespace Cropper

/-- A gesture has a box to work on, and where the zoom-in is set a box is left when the
gesture is undone. -/
structure ZoomsToBox (c : Cropper α) : Prop where
  held : c.mode.isIdle = false → c.crop.isSome = true
  kept : c.zoomIn.isSome = true → c.undone.crop.isSome = true

variable {c : Cropper α}

/-- There is a box as long as the zoom-in is set. -/
theorem ZoomsToBox.crop_isSome (h : c.ZoomsToBox) (hzoom : c.zoomIn.isSome = true) :
    c.crop.isSome = true := by
  cases hidle : c.mode.isIdle with
  | true =>
      have hkept := h.kept hzoom
      rw [undone_of_isIdle hidle] at hkept
      exact hkept
  | false => exact h.held hidle

/-- At rest only the crop counts. -/
theorem zoomsToBox_of_isIdle (hidle : c.mode.isIdle = true)
    (h : c.zoomIn.isSome = true → c.crop.isSome = true) : c.ZoomsToBox := by
  refine ⟨fun hbusy => ?_, ?_⟩
  · rw [hidle] at hbusy
    exact nomatch hbusy
  · rw [undone_of_isIdle hidle]
    exact h

/-- The zoom-in may be marked on any box but the first while it is drawn. -/
theorem zoomsToBox_markZoomIn (h : c.ZoomsToBox) (hfirst : c.mode.drawsFirst = false)
    (playhead : α) : (c.markZoomIn playhead).1.ZoomsToBox := by
  unfold markZoomIn
  split
  · rename_i hcrop
    exact ⟨fun _ => hcrop, fun _ => CropMode.restored_isSome hfirst hcrop⟩
  · exact h

variable [Scalar α]

/-- A press always leaves a box: the one it hit, or an empty one. -/
theorem down_crop_isSome (c : Cropper α) (p : Point α) : (c.down p).crop.isSome = true := by
  unfold down
  split
  · rename_i hcrop
    exact Option.isSome_of_eq_some hcrop
  · rename_i hhit
    unfold hit at hhit
    cases hcrop : c.crop with
    | none =>
        rw [hcrop] at hhit
        exact nomatch hhit
    | some b => rfl
  · rfl

theorem zoomsToBox_down (h : c.ZoomsToBox) (p : Point α) : (c.down p).ZoomsToBox := by
  refine ⟨fun _ => c.down_crop_isSome p, ?_⟩
  rw [down_zoomIn]
  intro hzoom
  by_cases hhit : c.hit p = none
  · rw [(down_of_hit_eq_none hhit).2]
    exact h.crop_isSome hzoom
  · rw [undone_of_grabs (down_of_hit_ne_none hhit)]
    exact c.down_crop_isSome p

theorem zoomsToBox_move (h : c.ZoomsToBox) (p : Point α) : (c.move p).ZoomsToBox := by
  have hheld : (c.move p).mode.isIdle = false → (c.move p).crop.isSome = true := by
    unfold move
    cases hm : c.mode with
    | idle =>
        intro hbusy
        exact h.held hbusy
    | drawing anchor previous => exact fun _ => rfl
    | resizing handle anchor => exact fun _ => rfl
    | moving last =>
        intro _
        have hcrop := h.held (by rw [hm]; rfl)
        rw [← hcrop]
        exact Option.isSome_map
  refine ⟨hheld, ?_⟩
  rw [move_zoomIn]
  intro hzoom
  -- Drawing keeps the remembered box, and a grabbed box is not let go.
  cases hgrabs : c.mode.grabs with
  | false =>
      rw [move_undone hgrabs]
      exact h.kept hzoom
  | true =>
      have hmoved := (move_grabs p).trans hgrabs
      rw [undone_of_grabs hmoved]
      exact hheld (CropMode.isIdle_of_grabs hmoved)

/-- A commit leaves the box that it commits, and any other release undoes the gesture. -/
theorem zoomsToBox_release (h : c.ZoomsToBox) (playhead : α) :
    (c.release playhead).1.ZoomsToBox := by
  cases hresult : (c.release playhead).2 with
  | none =>
      rw [(release_eq_none hresult).1]
      exact zoomsToBox_of_isIdle rfl h.kept
  | some commit =>
      obtain ⟨hrelease, hregion⟩ := release_eq_some hresult
      rw [hrelease]
      refine zoomsToBox_of_isIdle rfl fun _ => ?_
      have husable := cropUsable_of_sourceRegion hregion
      unfold CropUsable at husable
      rw [hregion] at husable
      exact husable

/-- **One event.** -/
theorem zoomsToBox_handle (h : c.ZoomsToBox) (e : PointerEvent α) (playhead : α) :
    (c.handle e playhead).1.ZoomsToBox := by
  unfold handle
  cases e.phase with
  | down => exact zoomsToBox_down h _
  | move => exact zoomsToBox_move h _
  | up => exact zoomsToBox_release h playhead
  | leave => exact zoomsToBox_release h playhead

theorem setCanvas_isSome (c : Cropper α) (size : Size α) :
    (c.setCanvas size).crop.isSome = c.crop.isSome := by
  unfold setCanvas
  cases c.crop with
  | none => rfl
  | some b =>
      dsimp only
      split <;> rfl

/-- A canvas of any size has the same boxes. -/
theorem zoomsToBox_setCanvas (h : c.ZoomsToBox) (size : Size α) :
    (c.setCanvas size).ZoomsToBox := by
  refine ⟨fun hbusy => ?_, fun hzoom => ?_⟩
  · rw [setCanvas_isSome]
    exact h.held hbusy
  · have hkept := h.kept hzoom
    unfold undone at hkept ⊢
    show (c.mode.restored (c.setCanvas size).crop).isSome = true
    cases hm : c.mode with
    | drawing anchor previous =>
        rw [hm] at hkept
        exact hkept
    | idle =>
        rw [hm] at hkept
        exact (c.setCanvas_isSome size).trans hkept
    | resizing handle anchor =>
        rw [hm] at hkept
        exact (c.setCanvas_isSome size).trans hkept
    | moving last =>
        rw [hm] at hkept
        exact (c.setCanvas_isSome size).trans hkept

/-- An event sets the zoom-in exactly if it commits. -/
theorem handle_zoomIn_isSome (c : Cropper α) (e : PointerEvent α) (playhead : α) :
    (c.handle e playhead).1.zoomIn.isSome
      = (c.zoomIn.isSome || (c.handle e playhead).2.isSome) := by
  have hrelease : (c.release playhead).1.zoomIn.isSome
      = (c.zoomIn.isSome || (c.release playhead).2.isSome) := by
    cases hresult : (c.release playhead).2 with
    | none =>
        rw [(release_eq_none hresult).1]
        exact (Bool.or_false _).symm
    | some commit =>
        rw [(release_eq_some hresult).1]
        exact (Bool.or_true _).symm
  unfold handle
  cases e.phase with
  | down =>
      dsimp only
      rw [down_zoomIn]
      exact (Bool.or_false _).symm
  | move =>
      dsimp only
      rw [move_zoomIn]
      exact (Bool.or_false _).symm
  | up => exact hrelease
  | leave => exact hrelease

end Cropper

/-! ## §3. Sessions. -/

namespace Session

variable [Scalar α]

/-- Both surfaces have a zoom-in, or neither has. -/
def ZoomsAgree (s : Session α) : Prop := s.timeline.zoomIn.isSome = s.crop.zoomIn.isSome

variable {s : Session α}

theorem zoomsAgree_canvasEvent (h : s.ZoomsAgree) (e : PointerEvent α) :
    (s.canvasEvent e).1.ZoomsAgree := by
  have hzoom := s.crop.handle_zoomIn_isSome e s.timeline.playhead
  unfold ZoomsAgree canvasEvent
  cases hcommit : (s.crop.handle e s.timeline.playhead).2 with
  | none =>
      rw [hcommit, Option.isSome_none, Bool.or_false] at hzoom
      simp only [hcommit]
      exact h.trans hzoom.symm
  | some commit =>
      rw [hcommit, Option.isSome_some, Bool.or_true] at hzoom
      simp only [hcommit]
      exact hzoom.symm

theorem zoomsAgree_markZoomIn (h : s.ZoomsAgree) : s.markZoomIn.1.ZoomsAgree := by
  unfold markZoomIn Cropper.markZoomIn
  by_cases hcrop : s.crop.crop.isSome = true
  · simp only [hcrop, if_true]
    rfl
  · simp only [hcrop]
    exact h

/-- **One action**, of any kind. -/
theorem zoomsAgree_act (h : s.ZoomsAgree) (action : SessionAction α) :
    (s.act action).ZoomsAgree := by
  cases action with
  | resize container => exact h
  | step step =>
      cases step with
      | canvas phase x y => exact zoomsAgree_canvasEvent h ⟨phase, x, y⟩
      | timeline phase x => exact (s.timeline.handle_isSome ⟨phase, x, 0⟩).trans h
      | seek t => exact h
      | markZoomIn => exact zoomsAgree_markZoomIn h
      | placeZoomOut =>
          exact (congrArg Option.isSome
            (s.timeline.placeZoomOut_zoomIn s.timeline.playhead)).trans h
      | clearCrop => exact rfl
      | preset quality => exact h

/-- **A run of actions.** -/
theorem zoomsAgree_run (actions : List (SessionAction α)) (h : s.ZoomsAgree) :
    (s.run actions).ZoomsAgree := by
  induction actions generalizing s with
  | nil => exact h
  | cons action actions ih => exact ih (zoomsAgree_act h action)

/-- Whether an action keeps to marking a crop: the zoom-in is not marked while the first box
is still being drawn. -/
def marksCrop (s : Session α) : SessionAction α → Bool
  | .step .markZoomIn => !s.crop.mode.drawsFirst
  | .step _ | .resize _ => true

/-- Whether all actions in a row do. -/
def allMarkCrop (s : Session α) : List (SessionAction α) → Bool
  | [] => true
  | action :: actions => s.marksCrop action && (s.act action).allMarkCrop actions

theorem zoomsToBox_act (h : s.crop.ZoomsToBox) (action : SessionAction α)
    (hmarks : s.marksCrop action = true) : (s.act action).crop.ZoomsToBox := by
  cases action with
  | resize container => exact Cropper.zoomsToBox_setCanvas h _
  | step step =>
      cases step with
      | canvas phase x y => exact Cropper.zoomsToBox_handle h ⟨phase, x, y⟩ s.timeline.playhead
      | markZoomIn =>
          have hfirst : s.crop.mode.drawsFirst = false := (Bool.not_eq_true' _).mp hmarks
          show s.markZoomIn.1.crop.ZoomsToBox
          rw [markZoomIn_crop]
          exact Cropper.zoomsToBox_markZoomIn h hfirst s.timeline.playhead
      | clearCrop => exact Cropper.zoomsToBox_of_isIdle rfl fun hzoom => nomatch hzoom
      | timeline phase x => exact h
      | seek t => exact h
      | placeZoomOut => exact h
      | preset quality => exact h

theorem zoomsToBox_run (actions : List (SessionAction α)) (h : s.crop.ZoomsToBox)
    (hmarks : s.allMarkCrop actions = true) : (s.run actions).crop.ZoomsToBox := by
  induction actions generalizing s with
  | nil => exact h
  | cons action actions ih =>
      obtain ⟨hfirst, hrest⟩ := Bool.and_eq_true_iff.mp hmarks
      exact ih (zoomsToBox_act h action hfirst) hrest

/-- A session starts without a zoom-in. -/
theorem zooms_start {source : Clip α} {config : Config α} {container : Size α} {track : Track α}
    (hstart : start source config container track = .ok s) :
    s.ZoomsAgree ∧ s.crop.ZoomsToBox := by
  obtain ⟨-, settings, background, -, -, rfl⟩ := start_eq_ok.mp hstart
  exact ⟨rfl, Cropper.zoomsToBox_of_isIdle rfl fun hzoom => nomatch hzoom⟩

/-- **A ZOOM-IN IS ON BOTH SURFACES OR ON NEITHER, AND ONLY WITH A CROP**: the first after
any steps and resizes, in the middle of gestures too; the second as long as the zoom-in is
not marked while the first box is still being drawn. -/
theorem zoom_needs_crop (source : Clip α) (config : Config α) (container : Size α)
    (track : Track α) (s : Session α) (actions : List (SessionAction α))
    (hstart : start source config container track = .ok s) :
    let t := s.run actions
    t.timeline.zoomIn.isSome = t.crop.zoomIn.isSome
      ∧ (s.allMarkCrop actions = true →
          t.timeline.zoomIn.isSome = true → t.crop.crop.isSome = true) := by
  intro t
  obtain ⟨hagree, hbox⟩ := zooms_start hstart
  have hagrees := zoomsAgree_run actions hagree
  refine ⟨hagrees, fun hmarks hzoom => ?_⟩
  exact (zoomsToBox_run actions hbox hmarks).crop_isSome (hagrees.symm.trans hzoom)

/-- The zoom-in is marked while a second box is begun in vain, and then the trim start is
dragged over the marker. -/
theorem zoom_needs_crop_redrawn :
    let source : Clip Exact := ⟨"clip.mp4", 10, 640, 360⟩
    let config : Config Exact := {}
    let container : Size Exact := ⟨640, 360⟩
    let s : Session Exact := {
      source := source
      crop := Cropper.fresh config.interaction.cropTuning source.frame (container.fit source.frame)
      timeline := Timeline.fresh config.interaction.timelineTuning 10 ⟨0, 1000⟩
      exportSettings := .standard
      background := .standard }
    let actions : List (SessionAction Exact) :=
      [.step (.canvas .down 100 100), .step (.canvas .move 260 190), .step (.canvas .up 260 190),
        .step (.canvas .down 500 300), .step (.seek 3), .step .markZoomIn,
        .step (.canvas .up 500 300), .step (.timeline .down 0), .step (.timeline .move 400)]
    let t := s.run actions
    start source config container ⟨0, 1000⟩ = .ok s ∧ s.allMarkCrop actions = true
      ∧ t.timeline.zoomIn = some 4 ∧ t.crop.zoomIn = some 3
      ∧ t.timeline.zoomIn.isSome = t.crop.zoomIn.isSome ∧ t.crop.crop.isSome = true := by
  intro source config container s actions t
  have hstart : start source config container ⟨0, 1000⟩ = .ok s := by decide +kernel
  have hmarks : s.allMarkCrop actions = true := by decide +kernel
  have hzoom : t.timeline.zoomIn = some 4 := by decide +kernel
  obtain ⟨hagree, hcrop⟩ := zoom_needs_crop source config container ⟨0, 1000⟩ s actions hstart
  exact ⟨hstart, hmarks, hzoom, by decide +kernel, hagree,
    hcrop hmarks (Option.isSome_of_eq_some hzoom)⟩

/-- **A zoom-in that is marked on the first box stays when the box goes**: the pointer is
pressed, the zoom-in is marked, and the pointer is released at the same place. -/
theorem marked_first_box_goes :
    let source : Clip Exact := ⟨"clip.mp4", 10, 640, 360⟩
    let config : Config Exact := {}
    let container : Size Exact := ⟨640, 360⟩
    let s : Session Exact := {
      source := source
      crop := Cropper.fresh config.interaction.cropTuning source.frame (container.fit source.frame)
      timeline := Timeline.fresh config.interaction.timelineTuning 10 ⟨0, 1000⟩
      exportSettings := .standard
      background := .standard }
    let t := s.run
      [.step (.canvas .down 100 100), .step .markZoomIn, .step (.canvas .up 100 100)]
    start source config container ⟨0, 1000⟩ = .ok s ∧ t.crop.mode.isIdle = true
      ∧ t.timeline.zoomIn = some 0 ∧ t.crop.zoomIn = some 0 ∧ t.crop.crop = none := by
  decide +kernel

end Session
end GifEdit
