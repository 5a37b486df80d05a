/-
  GifEdit.Proofs.Editor.Commits
  ─────────────────────────────
  **WHAT A COMMIT CARRIES, AND THE PRESS BEFORE IT.**

  The pointer may be anywhere, and a position that is undefined or infinite does get into
  the boxes of the canvas.  A commit is safe all the same, because its region is made by a
  conversion that clamps whatever it is given.

  How often a cropper commits is a matter of its rest: a cropper at rest ignores every
  event but a press, and a commit leaves it at rest.  So no second commit follows, say,
  when the pointer is released and then leaves the canvas.

  The lemmas:

    * `sourceRegion_encodable`  — the region on show can be encoded, whatever the box,
    * `handle_eq_some_iff`      — which events commit, and what,
    * `exists_press`            — from rest, a commit needs a press.

  Main result: `commits_show_the_crop`, for every cropper and every run of events.
-/
import GifEdit.Proofs.Editor.Gestures
import GifEdit.Proofs.Editor.Snapshot

namespace GifEdit

variable {α : Type} [Scalar α]

/-! ## §1. Regions that can be encoded. -/

/-- A region inside a frame, with even sides of at least two pixels.  Its far edges are
taken as they are and not cut off at the largest word. -/
structure Region.EncodableIn (r : Region) (f : Frame) : Prop where
  right : r.x + r.width ≤ f.width
  bottom : r.y + r.height ≤ f.height
  width_even : r.width % 2 = 0
  height_even : r.height % 2 = 0
  two_le_width : 2 ≤ r.width
  two_le_height : 2 ≤ r.height

namespace Cropper

variable {c : Cropper α} {e : PointerEvent α} {t : α} {commit : CropCommit α}

/-- **Whatever the box is made of**, the region on show can be encoded. -/
theorem sourceRegion_encodable {r : Region} (h : c.sourceRegion = some r) :
    r.EncodableIn c.source := by
  unfold sourceRegion at h
  cases hcrop : c.crop with
  | none =>
      rw [hcrop] at h
      exact nomatch h
  | some b =>
      rw [hcrop] at h
      dsimp only at h
      -- A region is inside and even however it was drawn; that it is not empty was checked.
      by_cases hsmall : (b.toSource c.canvas c.source).isDegenerate = true
      · rw [if_pos hsmall] at h
        exact nomatch h
      · rw [if_neg hsmall] at h
        obtain rfl := Option.some.inj h
        obtain ⟨hright, hbottom⟩ := b.toSource_inside c.canvas c.source
        have heven := b.toSource_isEven c.canvas c.source
        unfold Region.isEven at heven
        unfold Region.isDegenerate at hsmall
        rw [Bool.and_eq_true, decide_eq_true_eq, decide_eq_true_eq] at heven
        rw [Bool.or_eq_true, decide_eq_true_eq, decide_eq_true_eq] at hsmall
        exact ⟨hright, hbottom, heven.1, heven.2, by omega, by omega⟩

/-! ## §2. Events that commit. -/

/-- **An event commits** exactly if it ends a gesture and the region on show can be
encoded, and it commits that region at the playhead. -/
theorem handle_eq_some_iff : (c.handle e t).2 = some commit ↔
    e.phase.endsGesture = true ∧ c.mode.isIdle = false
      ∧ c.sourceRegion = some commit.region ∧ commit.zoomIn = t := by
  -- Presses and motions commit nothing, so a release is all there is to look at.
  cases hends : e.phase.endsGesture with
  | false =>
      have hnone : (c.handle e t).2 = none := by
        unfold handle
        cases hp : e.phase with
        | down => rfl
        | move => rfl
        | up => exact absurd hends (by simp [hp, Phase.endsGesture])
        | leave => exact absurd hends (by simp [hp, Phase.endsGesture])
      rw [hnone]
      simp
  | true =>
      rw [handle_of_endsGesture hends]
      cases hidle : c.mode.isIdle with
      | true =>
          rw [release_of_isIdle hidle]
          simp
      | false =>
          rw [release_of_not_isIdle hidle]
          cases hr : c.sourceRegion with
          | none => simp
          | some r =>
              obtain ⟨region, zoomIn⟩ := commit
              simp [eq_comm]

/-- A commit marks the zoom-in and leaves the cropper at rest; the box is not touched. -/
theorem handle_of_commit (h : (c.handle e t).2 = some commit) :
    (c.handle e t).1 = { c with zoomIn := some t, mode := .idle } := by
  obtain ⟨hends, -⟩ := handle_eq_some_iff.mp h
  rw [handle_of_endsGesture hends] at h ⊢
  exact (release_eq_some h).1

/-! ## §3. Rest. -/

/-- **A cropper at rest ignores every event but a press.** -/
theorem handle_of_isIdle (hidle : c.mode.isIdle = true) (hphase : e.phase ≠ .down) (t : α) :
    c.handle e t = (c, none) := by
  unfold handle
  cases hp : e.phase with
  | down => exact absurd hp hphase
  | move =>
      show (c.move ⟨e.x, e.y⟩, none) = (c, none)
      unfold move
      rw [CropMode.eq_idle hidle]
  | up => exact release_of_isIdle hidle t
  | leave => exact release_of_isIdle hidle t

/-- Without a press nothing happens between gestures. -/
theorem handleAll_of_isIdle (events : List (PointerEvent α × α)) (hidle : c.mode.isIdle = true)
    (hpress : ∀ e ∈ events, e.1.phase ≠ .down) : c.handleAll events = c := by
  induction events with
  | nil => rfl
  | cons e events ih =>
      show (c.handle e.1 e.2).1.handleAll events = c
      rw [handle_of_isIdle hidle (hpress e List.mem_cons_self)]
      exact ih fun e' he' => hpress e' (List.mem_cons_of_mem e he')

/-- **From rest, a commit needs a press.** -/
theorem exists_press (hidle : c.mode.isIdle = true) {events : List (PointerEvent α × α)}
    (hcommit : ((c.handleAll events).handle e t).2 = some commit) :
    ∃ press ∈ events, press.1.phase = .down := by
  by_contra hnone
  have hpress : ∀ e ∈ events, e.1.phase ≠ .down := by
    intro e he hdown
    exact hnone ⟨e, he, hdown⟩
  -- Without one the cropper is still at rest, and no event commits there.
  rw [handleAll_of_isIdle events hidle hpress] at hcommit
  obtain ⟨-, hbusy, -⟩ := handle_eq_some_iff.mp hcommit
  rw [hidle] at hbusy
  exact nomatch hbusy

/-! ## §4. Runs of events. -/

theorem handleAll_append (c : Cropper α) (events later : List (PointerEvent α × α)) :
    c.handleAll (events ++ later) = (c.handleAll events).handleAll later :=
  List.foldl_append

/-- No event changes the video. -/
theorem handleAll_source (c : Cropper α) (events : List (PointerEvent α × α)) :
    (c.handleAll events).source = c.source := by
  induction events generalizing c with
  | nil => rfl
  | cons e events ih => exact (ih _).trans (c.handle_source e.1 e.2)

/-- What an event commits that follows others. -/
def commitAfter (c : Cropper α) (before : List (PointerEvent α × α)) (e : PointerEvent α × α) :
    Option (CropCommit α) :=
  ((c.handleAll before).handle e.1 e.2).2

/-- **Between two commits there is a press.** -/
theorem exists_press_between {earlier between : List (PointerEvent α × α)}
    {first second : PointerEvent α × α} (hfirst : (c.commitAfter earlier first).isSome = true)
    (hsecond : c.commitAfter (earlier ++ first :: between) second = some commit) :
    ∃ press ∈ between, press.1.phase = .down := by
  obtain ⟨sent, hsent⟩ := Option.isSome_iff_exists.mp hfirst
  unfold commitAfter at hsent hsecond
  rw [handleAll_append] at hsecond
  have hrest : ((c.handleAll earlier).handle first.1 first.2).1.mode.isIdle = true := by
    rw [handle_of_commit hsent]
    rfl
  exact exists_press hrest hsecond

end Cropper

/-- A commit at the playhead `t` tells what the cropper `c` shows after it. -/
structure CropCommit.Tells (commit : CropCommit α) (c : Cropper α) (t : α) : Prop where
  /-- The region passes the check of crops. -/
  accepted : (Specification.checkCrop c.source (some commit.region) : Except (EditError α) Unit)
    = .ok ()
  encodable : commit.region.EncodableIn c.source
  shown : c.sourceRegion = some commit.region
  playhead : commit.zoomIn = t
  zoomIn : c.zoomIn = some t

namespace Cropper

variable {c : Cropper α}

/-- A commit tells of the state that it leaves. -/
theorem tells_of_commit {e : PointerEvent α} {t : α} {commit : CropCommit α}
    (h : (c.handle e t).2 = some commit) : commit.Tells (c.handle e t).1 t := by
  obtain ⟨-, -, hregion, hzoom⟩ := handle_eq_some_iff.mp h
  rw [handle_of_commit h]
  refine ⟨?_, sourceRegion_encodable hregion, hregion, hzoom, rfl⟩
  show Specification.checkCrop c.source (some commit.region) = _
  rw [← hregion]
  exact c.checkCrop_sourceRegion

/-- **EVERY COMMIT SHOWS THE CROP**: whatever events came before, a commit carries a region
of the video that passes all checks and is the one on show after it, and the zoom-in is at
the playhead.  It comes with a release or with the pointer leaving, and there is a press
before the first commit, if the cropper was at rest, and between any two commits. -/
theorem commits_show_the_crop (c : Cropper α) (before : List (PointerEvent α × α))
    (e : PointerEvent α × α) (commit : CropCommit α)
    (hcommit : c.commitAfter before e = some commit) :
    let done := c.handleAll (before ++ [e])
    commit.Tells done e.2 ∧ done.source = c.source
      ∧ (e.1.phase = .up ∨ e.1.phase = .leave)
      ∧ (c.mode.isIdle = true → ∃ press ∈ before, press.1.phase = .down)
      ∧ ∀ (earlier between : List (PointerEvent α × α)) (e' : PointerEvent α × α),
          before = earlier ++ e' :: between → (c.commitAfter earlier e').isSome = true →
            ∃ press ∈ between, press.1.phase = .down := by
  intro done
  have hdone : done = ((c.handleAll before).handle e.1 e.2).1 := c.handleAll_append before [e]
  refine ⟨?_, c.handleAll_source _, ?_, ?_, ?_⟩
  · rw [hdone]
    exact tells_of_commit hcommit
  · -- Only these two phases end a gesture.
    obtain ⟨hends, -⟩ := handle_eq_some_iff.mp hcommit
    cases hp : e.1.phase with
    | down => exact absurd hends (by simp [hp, Phase.endsGesture])
    | move => exact absurd hends (by simp [hp, Phase.endsGesture])
    | up => exact .inl rfl
    | leave => exact .inr rfl
  · intro hidle
    exact exists_press hidle hcommit
  · intro earlier between e' hbefore hearlier
    rw [hbefore] at hcommit
    exact exists_press_between hearlier hcommit

/-- A box is drawn over an undefined position and committed, and the pointer leaves after
its release; then the box is carried to infinity and committed again. -/
theorem commits_show_the_crop_carried :
    let c : Cropper Exact := fresh ⟨30, 8⟩ ⟨640, 360⟩ ⟨640, 360⟩
    let drawn : List (PointerEvent Exact × Exact) :=
      [(⟨.down, 100, 100⟩, 1), (⟨.move, .undefined, 150⟩, 1), (⟨.move, 260, .undefined⟩, 1)]
    let carried : List (PointerEvent Exact × Exact) :=
      [(⟨.leave, 700, 150⟩, 3), (⟨.down, 180, 145⟩, 3), (⟨.move, .posInfinity, .undefined⟩, 4)]
    let up : PointerEvent Exact × Exact := (⟨.up, 260, 150⟩, 2)
    let leave : PointerEvent Exact × Exact := (⟨.leave, 0, 0⟩, 5)
    let commit : CropCommit Exact := ⟨⟨480, 0, 160, 90⟩, 5⟩
    c.commitAfter drawn up = some ⟨⟨100, 100, 160, 90⟩, 2⟩
      ∧ c.commitAfter (drawn ++ up :: carried) leave = some commit
      ∧ commit.Tells (c.handleAll (drawn ++ up :: carried ++ [leave])) 5
      ∧ ∃ press ∈ carried, press.1.phase = .down := by
  intro c drawn carried up leave commit
  have hfirst : c.commitAfter drawn up = some ⟨⟨100, 100, 160, 90⟩, 2⟩ := by decide +kernel
  have hsecond : c.commitAfter (drawn ++ up :: carried) leave = some commit := by
    decide +kernel
  obtain ⟨htells, -, -, -, hbetween⟩ := commits_show_the_crop c _ leave commit hsecond
  exact ⟨hfirst, hsecond, htells,
    hbetween drawn carried up rfl (Option.isSome_of_eq_some hfirst)⟩

end Cropper
end GifEdit
