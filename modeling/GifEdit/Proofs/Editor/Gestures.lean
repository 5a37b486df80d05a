/-
  GifEdit.Proofs.Editor.Gestures
  ──────────────────────────────
  **WHAT A GESTURE LEAVES THAT COMMITS NOTHING.**

  A gesture runs from a press to a release.  If the box it leaves is too small to be
  encoded, nothing is committed, and then:

      zoom-in          is where it was, whatever happened in between
      drawing          the box from before the press is back
      resize, move     the box stays as small as it was made

  Only drawing remembers a box, so only drawing can be undone.  A press in the middle of
  a gesture is no part of the canvas protocol: what is remembered by then is the box of
  the moment (`second_press_keeps_empty_crop`), and the law says nothing about the box
  that such a gesture leaves.

  `undone` is the cropper with the remembered box back.  Drawing never changes it, and a
  release without a commit turns a cropper into it; everything else follows.

  Main result: `gesture_commits_or_undoes`.
-/
import GifEdit.Editor.Cropper
import GifEdit.Proofs.Scalar.Exact

namespace GifEdit

variable {α : Type}

/-! ## §1. Undoing a gesture. -/

namespace CropMode

/-- Whether the gesture grabbed the box that is there. -/
def grabs : CropMode α → Bool
  | .resizing _ _ | .moving _ => true
  | .idle | .drawing _ _ => false

/-- The crop that is left if nothing is committed. -/
def restored (crop : Option (Box α)) : CropMode α → Option (Box α)
  | .drawing _ previous => previous
  | .idle | .resizing _ _ | .moving _ => crop

theorem eq_idle {m : CropMode α} (h : m.isIdle = true) : m = .idle := by
  cases m with
  | idle => rfl
  | drawing => exact nomatch h
  | resizing => exact nomatch h
  | moving => exact nomatch h

theorem isIdle_of_grabs {m : CropMode α} (h : m.grabs = true) : m.isIdle = false := by
  cases m with
  | idle => exact nomatch h
  | drawing => exact nomatch h
  | resizing => rfl
  | moving => rfl

end CropMode

namespace Cropper

/-- The cropper after a gesture that commits nothing. -/
def undone (c : Cropper α) : Cropper α :=
  { c with crop := c.mode.restored c.crop, mode := .idle }

variable {c : Cropper α}

/-- A cropper at rest has nothing to undo. -/
theorem undone_of_isIdle (h : c.mode.isIdle = true) : c.undone = c := by
  unfold undone
  rw [CropMode.eq_idle h]
  show { c with mode := .idle } = c
  rw [← CropMode.eq_idle h]

/-- A box that was grabbed is not remembered. -/
theorem undone_of_grabs (h : c.mode.grabs = true) : c.undone = { c with mode := .idle } := by
  unfold undone
  cases hm : c.mode with
  | idle => exact absurd h (by simp [hm, CropMode.grabs])
  | drawing => exact absurd h (by simp [hm, CropMode.grabs])
  | resizing => rfl
  | moving => rfl

variable [Scalar α]

/-! ## §2. One event. -/

/-- A press that hits nothing remembers the crop. -/
theorem down_of_hit_eq_none {p : Point α} (h : c.hit p = none) :
    (c.down p).mode.grabs = false ∧ (c.down p).undone = { c with mode := .idle } := by
  unfold down
  rw [h]
  exact ⟨rfl, rfl⟩

/-- Any other press grabs the box. -/
theorem down_of_hit_ne_none {p : Point α} (h : c.hit p ≠ none) :
    (c.down p).mode.grabs = true := by
  unfold down
  -- A corner is hit only where there is a box.
  cases hcrop : c.crop with
  | none => exact absurd (by unfold hit; rw [hcrop]) h
  | some b =>
      cases hhit : c.hit p with
      | none => exact absurd hhit h
      | some grabbed => cases grabbed <;> rfl

theorem down_zoomIn (p : Point α) : (c.down p).zoomIn = c.zoomIn := by
  unfold down
  split <;> rfl

theorem move_zoomIn (p : Point α) : (c.move p).zoomIn = c.zoomIn := by
  unfold move
  split <;> rfl

/-- A motion does not change what the gesture does. -/
theorem move_grabs (p : Point α) : (c.move p).mode.grabs = c.mode.grabs := by
  unfold move
  split <;> simp_all [CropMode.grabs]

/-- Drawing goes on with the same box remembered. -/
theorem move_undone (h : c.mode.grabs = false) (p : Point α) : (c.move p).undone = c.undone := by
  unfold move undone
  split <;> simp_all [CropMode.grabs, CropMode.restored]

/-- Where there is no gesture, there is nothing to release. -/
theorem release_of_isIdle (h : c.mode.isIdle = true) (t : α) : c.release t = (c, none) := by
  unfold release
  rw [CropMode.eq_idle h]

/-- **The end of a gesture**: it commits a box that an encoder accepts, and is undone
otherwise. -/
theorem release_of_not_isIdle (h : c.mode.isIdle = false) (t : α) :
    c.release t = match c.sourceRegion with
      | some r => ({ c with zoomIn := some t, mode := .idle }, some ⟨r, t⟩)
      | none => (c.undone, none) := by
  unfold release undone
  cases hm : c.mode with
  | idle => exact absurd h (by simp [hm, CropMode.isIdle])
  | drawing => cases hr : c.sourceRegion <;> rfl
  | resizing => cases hr : c.sourceRegion <;> rfl
  | moving => cases hr : c.sourceRegion <;> rfl

/-- A release that commits nothing undoes the gesture, and if there was one, its box is
too small. -/
theorem release_eq_none {t : α} (h : (c.release t).2 = none) :
    (c.release t).1 = c.undone ∧ (c.mode.isIdle = true ∨ c.sourceRegion = none) := by
  cases hidle : c.mode.isIdle with
  | true =>
      rw [release_of_isIdle hidle, undone_of_isIdle hidle]
      exact ⟨rfl, .inl rfl⟩
  | false =>
      rw [release_of_not_isIdle hidle] at h ⊢
      cases hr : c.sourceRegion with
      | none => exact ⟨rfl, .inr rfl⟩
      | some r =>
          rw [hr] at h
          exact nomatch h

/-- A release that commits keeps the box that was made. -/
theorem release_eq_some {t : α} {commit : CropCommit α} (h : (c.release t).2 = some commit) :
    (c.release t).1 = { c with zoomIn := some t, mode := .idle }
      ∧ c.sourceRegion = some commit.region := by
  cases hidle : c.mode.isIdle with
  | true =>
      rw [release_of_isIdle hidle] at h
      exact nomatch h
  | false =>
      rw [release_of_not_isIdle hidle] at h ⊢
      cases hr : c.sourceRegion with
      | none =>
          rw [hr] at h
          exact nomatch h
      | some r =>
          rw [hr] at h
          obtain rfl := Option.some.inj h
          exact ⟨rfl, rfl⟩

/-! ## §3. Events in a row. -/

/-- The cropper after events in a row, each with the playhead at its time. -/
def handleAll (c : Cropper α) (events : List (PointerEvent α × α)) : Cropper α :=
  events.foldl (fun c e => (c.handle e.1 e.2).1) c

/-- Between the press and the release nothing happens to the zoom-in. -/
theorem handleAll_zoomIn (events : List (PointerEvent α × α))
    (h : ∀ e ∈ events, e.1.phase.endsGesture = false) :
    (c.handleAll events).zoomIn = c.zoomIn := by
  induction events generalizing c with
  | nil => rfl
  | cons e events ih =>
      show ((c.handle e.1 e.2).1.handleAll events).zoomIn = c.zoomIn
      rw [ih fun e' he' => h e' (List.mem_cons_of_mem e he')]
      have hphase := h e List.mem_cons_self
      unfold handle
      cases hp : e.1.phase with
      | down => exact down_zoomIn _
      | move => exact move_zoomIn _
      | up => exact absurd hphase (by simp [hp, Phase.endsGesture])
      | leave => exact absurd hphase (by simp [hp, Phase.endsGesture])

theorem handle_of_move {e : PointerEvent α} (h : e.phase = .move) (t : α) :
    (c.handle e t).1 = c.move ⟨e.x, e.y⟩ := by
  unfold handle
  rw [h]

theorem handle_of_down {e : PointerEvent α} (h : e.phase = .down) (t : α) :
    (c.handle e t).1 = c.down ⟨e.x, e.y⟩ := by
  unfold handle
  rw [h]

theorem handle_of_endsGesture {e : PointerEvent α} (h : e.phase.endsGesture = true) (t : α) :
    c.handle e t = c.release t := by
  unfold handle
  cases hp : e.phase with
  | down => exact absurd h (by simp [hp, Phase.endsGesture])
  | move => exact absurd h (by simp [hp, Phase.endsGesture])
  | up => rfl
  | leave => rfl

/-- No motion changes what the gesture does. -/
theorem handleAll_grabs (moves : List (PointerEvent α × α)) (h : ∀ e ∈ moves, e.1.phase = .move) :
    (c.handleAll moves).mode.grabs = c.mode.grabs := by
  induction moves generalizing c with
  | nil => rfl
  | cons e moves ih =>
      show ((c.handle e.1 e.2).1.handleAll moves).mode.grabs = c.mode.grabs
      rw [ih fun e' he' => h e' (List.mem_cons_of_mem e he'),
        handle_of_move (h e List.mem_cons_self), move_grabs]

/-- **While a box is drawn, undoing it leads back to the same state.** -/
theorem handleAll_undone (moves : List (PointerEvent α × α)) (h : ∀ e ∈ moves, e.1.phase = .move)
    (hgrabs : c.mode.grabs = false) : (c.handleAll moves).undone = c.undone := by
  induction moves generalizing c with
  | nil => rfl
  | cons e moves ih =>
      have hmove := handle_of_move (c := c) (h e List.mem_cons_self) e.2
      show ((c.handle e.1 e.2).1.handleAll moves).undone = c.undone
      rw [hmove, ih (fun e' he' => h e' (List.mem_cons_of_mem e he'))
        ((move_grabs _).trans hgrabs), move_undone hgrabs]

/-! ## §4. Gestures from one press. -/

/-- The zoom-in is only moved by a commit, however often the pointer was pressed. -/
theorem zoomIn_of_release_eq_none {events : List (PointerEvent α × α)}
    (h : ∀ e ∈ events, e.1.phase.endsGesture = false) {t : α}
    (hnone : ((c.handleAll events).release t).2 = none) :
    ((c.handleAll events).release t).1.zoomIn = c.zoomIn := by
  rw [(release_eq_none hnone).1]
  exact handleAll_zoomIn events h

/-- A box that was drawn in vain leaves no trace. -/
theorem release_draw_eq_none {p : Point α} {moves : List (PointerEvent α × α)}
    (hmoves : ∀ e ∈ moves, e.1.phase = .move) (hidle : c.mode.isIdle = true)
    (hhit : c.hit p = none) {t : α} (hnone : (((c.down p).handleAll moves).release t).2 = none) :
    (((c.down p).handleAll moves).release t).1 = c := by
  obtain ⟨hgrabs, hundone⟩ := down_of_hit_eq_none hhit
  rw [(release_eq_none hnone).1, handleAll_undone moves hmoves hgrabs, hundone,
    ← CropMode.eq_idle hidle]

/-- A box that was resized or moved in vain stays as it was made. -/
theorem release_grab_eq_none {p : Point α} {moves : List (PointerEvent α × α)}
    (hmoves : ∀ e ∈ moves, e.1.phase = .move) (hhit : c.hit p ≠ none) {t : α}
    (hnone : (((c.down p).handleAll moves).release t).2 = none) :
    (((c.down p).handleAll moves).release t).1
        = { (c.down p).handleAll moves with mode := .idle }
      ∧ ((c.down p).handleAll moves).sourceRegion = none := by
  have hgrabs := (handleAll_grabs moves hmoves).trans (down_of_hit_ne_none hhit)
  obtain ⟨hrelease, hsmall⟩ := release_eq_none hnone
  rw [hrelease, undone_of_grabs hgrabs]
  refine ⟨rfl, hsmall.resolve_left ?_⟩
  rw [CropMode.isIdle_of_grabs hgrabs]
  exact Bool.false_ne_true

/-! ## §5. Crops between gestures. -/

/-- Whether an event keeps to the protocol of the canvas: a press comes between gestures,
and the release of a box that was grabbed commits. -/
def inOrder (c : Cropper α) (e : PointerEvent α) (t : α) : Bool :=
  match e.phase with
  | .down => c.mode.isIdle
  | .move => true
  | .up | .leave => !c.mode.grabs || (c.release t).2.isSome

/-- Whether all events do. -/
def allInOrder (c : Cropper α) : List (PointerEvent α × α) → Bool
  | [] => true
  | e :: events => c.inOrder e.1 e.2 && (c.handle e.1 e.2).1.allInOrder events

/-- If there is a crop, an encoder accepts it. -/
def CropUsable (c : Cropper α) : Prop := c.crop.isSome = c.sourceRegion.isSome

/-- A crop with a region is usable. -/
theorem cropUsable_of_sourceRegion {r : Region} (h : c.sourceRegion = some r) : c.CropUsable := by
  unfold CropUsable
  rw [h]
  cases hcrop : c.crop with
  | none =>
      unfold sourceRegion at h
      rw [hcrop] at h
      exact nomatch h
  | some b => rfl

/-- Undoing the gesture would leave a usable crop.  Nothing is known of a box that is grabbed. -/
def Undoable (c : Cropper α) : Prop := c.mode.grabs = false → c.undone.CropUsable

theorem Undoable.cropUsable (h : c.Undoable) (hidle : c.mode.isIdle = true) : c.CropUsable := by
  have husable := h (by rw [CropMode.eq_idle hidle]; rfl)
  rw [undone_of_isIdle hidle] at husable
  exact husable

/-- A usable crop between gestures may be undone to. -/
theorem undoable_of_cropUsable (hidle : c.mode.isIdle = true) (h : c.CropUsable) :
    c.Undoable := by
  intro _
  rw [undone_of_isIdle hidle]
  exact h

/-- A press between gestures remembers a usable crop, or it grabs one. -/
theorem undoable_down (h : c.Undoable) (hidle : c.mode.isIdle = true) (p : Point α) :
    (c.down p).Undoable := by
  intro hgrabs
  by_cases hhit : c.hit p = none
  · rw [(down_of_hit_eq_none hhit).2, ← CropMode.eq_idle hidle]
    exact h.cropUsable hidle
  · rw [down_of_hit_ne_none hhit] at hgrabs
    exact nomatch hgrabs

theorem undoable_move (h : c.Undoable) (p : Point α) : (c.move p).Undoable := by
  intro hgrabs
  rw [move_grabs] at hgrabs
  rw [move_undone hgrabs]
  exact h hgrabs

/-- A release commits a usable crop or goes back to one. -/
theorem undoable_release (h : c.Undoable) {t : α}
    (horder : (!c.mode.grabs || (c.release t).2.isSome) = true) : (c.release t).1.Undoable := by
  cases hresult : (c.release t).2 with
  | none =>
      rw [hresult, Option.isSome_none, Bool.or_false, Bool.not_eq_true'] at horder
      rw [(release_eq_none hresult).1]
      exact undoable_of_cropUsable rfl (h horder)
  | some commit =>
      obtain ⟨hrelease, hregion⟩ := release_eq_some hresult
      rw [hrelease]
      exact undoable_of_cropUsable rfl (cropUsable_of_sourceRegion hregion)

/-- **One event.** -/
theorem undoable_handle (h : c.Undoable) {e : PointerEvent α} {t : α}
    (horder : c.inOrder e t = true) : (c.handle e t).1.Undoable := by
  unfold inOrder at horder
  unfold handle
  cases hp : e.phase with
  | down =>
      rw [hp] at horder
      exact undoable_down h horder _
  | move => exact undoable_move h _
  | up =>
      rw [hp] at horder
      exact undoable_release h horder
  | leave =>
      rw [hp] at horder
      exact undoable_release h horder

/-- **Events in a row.** -/
theorem undoable_handleAll (events : List (PointerEvent α × α)) (h : c.Undoable)
    (horder : c.allInOrder events = true) : (c.handleAll events).Undoable := by
  induction events generalizing c with
  | nil => exact h
  | cons e events ih =>
      obtain ⟨hfirst, hrest⟩ := Bool.and_eq_true_iff.mp horder
      exact ih (undoable_handle h hfirst) hrest

/-- **A GESTURE COMMITS, OR ITS DRAWING IS UNDONE.**  If the release commits nothing, the
zoom-in is where it was before the press.  If there was one press, then a press beside the
crop leaves the whole state as it was, and a press on the crop leaves the box as the last
motion made it, too small to be encoded.

So between gestures there is a crop exactly if an encoder accepts it, as long as presses
come between gestures and every box that was grabbed is committed. -/
theorem gesture_commits_or_undoes :
    (∀ (c : Cropper α) (press last : PointerEvent α × α) (between : List (PointerEvent α × α)),
      c.mode.isIdle = true → press.1.phase = .down →
      (∀ e ∈ between, e.1.phase.endsGesture = false) → last.1.phase.endsGesture = true →
      let held := c.handleAll (press :: between)
      let released := held.handle last.1 last.2
      released.2 = none →
        released.1.zoomIn = c.zoomIn
        ∧ ((∀ e ∈ between, e.1.phase = .move) →
            (c.hit ⟨press.1.x, press.1.y⟩ = none → released.1 = c)
            ∧ (c.hit ⟨press.1.x, press.1.y⟩ ≠ none →
                released.1 = { held with mode := .idle } ∧ released.1.sourceRegion = none)))
    ∧ (∀ (tuning : CropTuning α) (source : Frame) (canvas : Size α)
        (events : List (PointerEvent α × α)),
        let fresh := fresh tuning source canvas
        fresh.allInOrder events = true → (fresh.handleAll events).mode.isIdle = true →
          (fresh.handleAll events).CropUsable) := by
  constructor
  · intro c press last between hidle hpress hbetween hlast held released hnone
    have hreleased : released = held.release last.2 := handle_of_endsGesture hlast last.2
    rw [hreleased] at hnone ⊢
    have hall : ∀ e ∈ press :: between, e.1.phase.endsGesture = false := by
      intro e he
      rcases List.mem_cons.mp he with rfl | he
      · rw [hpress]
        rfl
      · exact hbetween e he
    refine ⟨zoomIn_of_release_eq_none hall hnone, ?_⟩
    -- What the press hit decides whether the gesture draws, and only drawing is undone.
    intro hmoves
    have hheld : held = (c.down ⟨press.1.x, press.1.y⟩).handleAll between := by
      show (c.handle press.1 press.2).1.handleAll between = _
      rw [handle_of_down hpress]
    rw [hheld] at hnone ⊢
    refine ⟨fun hhit => release_draw_eq_none hmoves hidle hhit hnone, ?_⟩
    intro hhit
    obtain ⟨hrelease, hsmall⟩ := release_grab_eq_none hmoves hhit hnone
    rw [hrelease]
    exact ⟨rfl, hsmall⟩
  · intro tuning source canvas events fresh horder hidle
    have hfresh : fresh.Undoable := undoable_of_cropUsable rfl rfl
    exact (undoable_handleAll events hfresh horder).cropUsable hidle

/-- A crop is drawn and committed; then a press beside it draws a box of one pixel. -/
theorem gesture_commits_or_undoes_beside :
    let fresh : Cropper Exact := fresh ⟨30, 8⟩ ⟨640, 360⟩ ⟨640, 360⟩
    let drawn : List (PointerEvent Exact × Exact) :=
      [(⟨.down, 100, 100⟩, 1), (⟨.move, 260, 150⟩, 1), (⟨.up, 260, 150⟩, 2)]
    let c := fresh.handleAll drawn
    let press : PointerEvent Exact × Exact := (⟨.down, 500, 300⟩, 4)
    let last : PointerEvent Exact × Exact := (⟨.leave, 501, 300⟩, 5)
    let released := (c.handleAll [press, (⟨.move, 501, 300⟩, 4)]).handle last.1 last.2
    c.crop = some ⟨100, 100, 160, 90⟩ ∧ c.zoomIn = some 2 ∧ released.2 = none
      ∧ released.1 = c ∧ c.CropUsable := by
  intro fresh drawn c press last released
  obtain ⟨hgesture, hrun⟩ := gesture_commits_or_undoes (α := Exact)
  have hnone : released.2 = none := by decide +kernel
  let moves : List (PointerEvent Exact × Exact) := [(⟨.move, 501, 300⟩, 4)]
  have hmoves : ∀ e ∈ moves, e.1.phase = .move := by decide
  have hbetween : ∀ e ∈ moves, e.1.phase.endsGesture = false := by decide
  have hhit : c.hit ⟨500, 300⟩ = none := by decide +kernel
  obtain ⟨-, hsame⟩ := hgesture c press last moves (by decide +kernel) rfl hbetween rfl hnone
  exact ⟨by decide +kernel, by decide +kernel, hnone, (hsame hmoves).1 hhit,
    hrun ⟨30, 8⟩ ⟨640, 360⟩ ⟨640, 360⟩ drawn (by decide +kernel) (by decide +kernel)⟩

/-- **A resize that commits nothing is not undone.**  On a canvas that is larger than the
video a committed box can be made too small to be encoded, and stays so. -/
theorem uncommitted_resize_changes_crop :
    let c := (fresh ⟨30, 8⟩ ⟨640, 360⟩ ⟨6400, 3600⟩ : Cropper Exact).handleAll
      [(⟨.down, 1000, 1000⟩, 0), (⟨.move, 2600, 1900⟩, 0), (⟨.up, 2600, 1900⟩, 2)]
    let released := (c.handleAll [(⟨.down, 2600, 1900⟩, 2), (⟨.move, 1000, 1000⟩, 2)]).handle
      ⟨.up, 1000, 1000⟩ 5
    c.mode.isIdle = true ∧ c.crop = some ⟨1000, 1000, 1600, 900⟩ ∧ c.sourceRegion.isSome = true
      ∧ released.2 = none ∧ released.1.mode.isIdle = true
      ∧ released.1.crop = some ⟨1000, 1000, 8, 4.5⟩ ∧ released.1.sourceRegion = none := by
  decide +kernel

/-- **A second press forgets the box to go back to.**  At the same place it grabs the empty
box that the first one began, and the release leaves that box. -/
theorem second_press_keeps_empty_crop :
    let c : Cropper Exact := fresh ⟨30, 8⟩ ⟨640, 360⟩ ⟨640, 360⟩
    let released := (c.handleAll [(⟨.down, 100, 100⟩, 0), (⟨.down, 100, 100⟩, 0)]).handle
      ⟨.up, 100, 100⟩ 0
    c.mode.isIdle = true ∧ c.crop = none ∧ released.2 = none
      ∧ released.1.mode.isIdle = true ∧ released.1.crop = some ⟨100, 100, 0, 0⟩
      ∧ released.1.sourceRegion = none := by
  decide +kernel

end Cropper
end GifEdit
