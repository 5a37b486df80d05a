/-
  GifEdit.Proofs.Editor.Stamps
  ────────────────────────────
  **TWO COPIES OF THE ZOOM-IN.**

  Both surfaces hold a zoom-in.  A STAMP writes both, where a gesture on the canvas commits
  and where a crop is marked:

      canvas     the playhead
      timeline   the playhead, clamped to the trim

  From then on they are two numbers: a motion on the timeline moves its marker and leaves
  the canvas alone.  So they agree as long as every stamp comes with the playhead in the
  trim and no motion moves the marker.

  The lemmas:

    * `stampsAt_act`         — a stamp writes both,
    * `crop_zoomIn_act`      — what is neither a stamp nor a removal leaves the canvas,
    * `timeline_zoomIn_act`  — and the timeline, too, if it is no motion.

  Main result: `stamps_write_both_copies`, for every run of steps and resizes.
-/
import GifEdit.Proofs.Editor.Drags
import GifEdit.Proofs.Editor.Outcomes

namespace GifEdit

variable {α : Type} [Scalar α]

/-! ## §1. Times that do not differ. -/

theorem differ_trans [OrderedScalar α] {a b c : Option α} (hab : differ a b = false)
    (hbc : differ b c = false) : differ a c = false := by
  cases a with
  | none =>
      cases b with
      | none => exact hbc
      | some y => exact nomatch hab
  | some x =>
      cases b with
      | none => exact nomatch hab
      | some y =>
          cases c with
          | none => exact nomatch hbc
          | some z =>
              have hxy : (x == y) = true := (Bool.not_eq_false' _).mp hab
              have hyz : (y == z) = true := (Bool.not_eq_false' _).mp hbc
              exact (Bool.not_eq_false' _).mpr (Scalar.beq_trans hxy hyz)

/-! ## §2. What an action does to the copies. -/

/-- No event on the canvas but a commit touches the zoom-in. -/
theorem Cropper.handle_zoomIn {c : Cropper α} {e : PointerEvent α} {t : α}
    (h : (c.handle e t).2 = none) : (c.handle e t).1.zoomIn = c.zoomIn := by
  cases hends : e.phase.endsGesture with
  | true =>
      rw [handle_of_endsGesture hends] at h ⊢
      rw [(release_eq_none h).1]
      rfl
  | false =>
      unfold handle
      cases hp : e.phase with
      | down => exact down_zoomIn _
      | move => exact move_zoomIn _
      | up | leave => exact absurd hends (by simp [hp, Phase.endsGesture])

namespace Session

/-- The copies of the zoom-in are equal, or neither is there. -/
def CopiesAgree (s : Session α) : Prop := differ s.crop.zoomIn s.timeline.zoomIn = false

/-- The time that an action stamps on both surfaces, if it does. -/
def stamp? (s : Session α) : SessionAction α → Option α
  | .step .markZoomIn => if s.crop.crop.isSome then some s.timeline.playhead else none
  | .step step => (s.apply step).2.commit.map (·.zoomIn)
  | .resize _ => none

/-- Whether an action is a motion that moves the marker on the timeline: it has the marker
or an end of the trim latched. -/
def dragsZoomIn (s : Session α) : SessionAction α → Bool
  | .step (.timeline .move _) => s.timeline.drag.moves .zoomIn
  | .step _ | .resize _ => false

variable {s : Session α} {a : SessionAction α} {p : α}

/-- `s'` is `s` with a time stamped on both surfaces. -/
structure StampsAt (p : α) (s s' : Session α) : Prop where
  playhead : p = s.timeline.playhead
  crop : s'.crop.zoomIn = some p
  timeline : s'.timeline.zoomIn = some (clampBetween p s.timeline.trimStart s.timeline.trimEnd)

/-- **A stamp writes both copies.** -/
theorem stampsAt_act (h : s.stamp? a = some p) : StampsAt p s (s.act a) := by
  cases a with
  | resize container => exact nomatch h
  | step step =>
      cases step with
      | canvas phase x y =>
          obtain ⟨commit, hcommit, rfl⟩ := Option.map_eq_some_iff.mp h
          obtain ⟨-, htime, htimeline⟩ := apply_of_commit hcommit
          have hcrop := Cropper.handle_of_commit (e := ⟨phase, x, y⟩) hcommit
          refine ⟨htime, ?_, congrArg Timeline.zoomIn htimeline⟩
          rw [htime]
          exact congrArg Cropper.zoomIn hcrop
      | markZoomIn =>
          have hmarks : (if s.crop.crop.isSome then some s.timeline.playhead else none) = some p :=
            h
          show StampsAt p s s.markZoomIn.1
          rw [markZoomIn_eq]
          split at hmarks
          · rename_i hcrop
            obtain rfl := Option.some.inj hmarks
            rw [if_pos hcrop]
            exact ⟨rfl, rfl, rfl⟩
          · exact nomatch hmarks
      | timeline phase x | seek t | placeZoomOut | clearCrop | preset quality => exact nomatch h

/-- A mark that stamps nothing does nothing. -/
theorem markZoomIn_of_stamp_eq_none (h : s.stamp? (.step .markZoomIn) = none) :
    s.markZoomIn.1 = s := by
  have hmarks : (if s.crop.crop.isSome then some s.timeline.playhead else none) = none := h
  rw [markZoomIn_eq]
  split at hmarks
  · exact nomatch hmarks
  · rename_i hcrop
    rw [if_neg hcrop]

/-- **Any other action leaves the copy on the canvas.** -/
theorem crop_zoomIn_act (hstamp : s.stamp? a = none) (hclear : a ≠ .step .clearCrop) :
    (s.act a).crop.zoomIn = s.crop.zoomIn := by
  cases a with
  | resize container => rfl
  | step step =>
      cases step with
      | canvas phase x y =>
          exact Cropper.handle_zoomIn (e := ⟨phase, x, y⟩) (Option.map_eq_none_iff.mp hstamp)
      | markZoomIn =>
          exact congrArg (fun t => t.crop.zoomIn) (markZoomIn_of_stamp_eq_none hstamp)
      | clearCrop => exact absurd rfl hclear
      | timeline phase x | seek t | placeZoomOut | preset quality => rfl

/-- **Any other action that is no motion leaves the copy on the timeline.** -/
theorem timeline_zoomIn_act (hstamp : s.stamp? a = none) (hclear : a ≠ .step .clearCrop)
    (hdrag : s.dragsZoomIn a = false) : (s.act a).timeline.zoomIn = s.timeline.zoomIn := by
  cases a with
  | resize container => rfl
  | step step =>
      cases step with
      | canvas phase x y =>
          have hcommit : (s.canvasEvent ⟨phase, x, y⟩).2 = none :=
            Option.map_eq_none_iff.mp hstamp
          exact congrArg Timeline.zoomIn (canvasEvent_timeline hcommit)
      | markZoomIn =>
          exact congrArg (fun t => t.timeline.zoomIn) (markZoomIn_of_stamp_eq_none hstamp)
      | clearCrop => exact absurd rfl hclear
      | timeline phase x =>
          cases phase with
          | down => exact s.timeline.down_zoomIn x
          | move => exact (s.timeline.drags_move x).others .zoomIn hdrag
          | up | leave => rfl
      | placeZoomOut => exact s.timeline.placeZoomOut_zoomIn s.timeline.playhead
      | seek t | preset quality => rfl

/-! ## §3. Runs of actions. -/

/-- Whether an action keeps the copies equal: a stamp comes with the playhead in the trim,
and a motion leaves the marker where it is. -/
def keepsCopies (s : Session α) (a : SessionAction α) : Bool :=
  match s.stamp? a with
  | some p => decide (s.timeline.trimStart ≤ p) && decide (p ≤ s.timeline.trimEnd)
  | none => !s.dragsZoomIn a || !differ s.timeline.zoomIn (s.act a).timeline.zoomIn

/-- Whether all actions in a row do. -/
def allKeepCopies (s : Session α) : List (SessionAction α) → Bool
  | [] => true
  | a :: actions => s.keepsCopies a && (s.act a).allKeepCopies actions

variable [OrderedScalar α]

/-- In the trim, nothing is clamped away. -/
theorem StampsAt.copiesAgree {s' : Session α} (h : StampsAt p s s')
    (hstart : s.timeline.trimStart ≤ p) (hstop : p ≤ s.timeline.trimEnd) : s'.CopiesAgree := by
  unfold CopiesAgree
  rw [h.crop, h.timeline]
  exact (Bool.not_eq_false' _).mpr (Scalar.beq_max_min hstart hstop)

/-- **One action.** -/
theorem copiesAgree_act (h : s.CopiesAgree) (hkeeps : s.keepsCopies a = true) :
    (s.act a).CopiesAgree := by
  unfold keepsCopies at hkeeps
  cases hstamp : s.stamp? a with
  | some p =>
      rw [hstamp, Bool.and_eq_true, decide_eq_true_eq, decide_eq_true_eq] at hkeeps
      exact (stampsAt_act hstamp).copiesAgree hkeeps.1 hkeeps.2
  | none =>
      rw [hstamp, Bool.or_eq_true, Bool.not_eq_true', Bool.not_eq_true'] at hkeeps
      by_cases hclear : a = .step .clearCrop
      · subst hclear
        rfl
      · unfold CopiesAgree at h ⊢
        rw [crop_zoomIn_act hstamp hclear]
        rcases hkeeps with hdrag | hmarker
        · rw [timeline_zoomIn_act hstamp hclear hdrag]
          exact h
        · exact differ_trans h hmarker

/-- **A run of actions.** -/
theorem copiesAgree_run (actions : List (SessionAction α)) (h : s.CopiesAgree)
    (hkeeps : s.allKeepCopies actions = true) : (s.run actions).CopiesAgree := by
  induction actions generalizing s with
  | nil => exact h
  | cons a actions ih =>
      obtain ⟨hfirst, hrest⟩ := Bool.and_eq_true_iff.mp hkeeps
      exact ih (copiesAgree_act h hfirst) hrest

/-- **STAMPS WRITE BOTH COPIES OF THE ZOOM-IN, AND ONLY MOTIONS PART THEM**: after any steps
and resizes, either both copies are there or neither.  A stamp writes both, a removal takes
both away, and any other action leaves them; but a motion with the marker or an end of the
trim latched may move the one on the timeline.  So they are equal if every stamp so far came
with the playhead in the trim and no motion moved the marker. -/
theorem stamps_write_both_copies (source : Clip α) (config : Config α) (container : Size α)
    (track : Track α) (s : Session α) (actions : List (SessionAction α))
    (hstart : start source config container track = .ok s) :
    let t := s.run actions
    t.timeline.zoomIn.isSome = t.crop.zoomIn.isSome
      ∧ (∀ a p, t.stamp? a = some p → StampsAt p t (t.act a)
          ∧ (t.timeline.trimStart ≤ p → p ≤ t.timeline.trimEnd → (t.act a).CopiesAgree))
      ∧ (t.act (.step .clearCrop)).crop.zoomIn = none
      ∧ (t.act (.step .clearCrop)).timeline.zoomIn = none
      ∧ (∀ a, t.stamp? a = none → a ≠ .step .clearCrop →
          (t.act a).crop.zoomIn = t.crop.zoomIn
            ∧ (t.dragsZoomIn a = false → (t.act a).timeline.zoomIn = t.timeline.zoomIn))
      ∧ (s.allKeepCopies actions = true → t.CopiesAgree) := by
  intro t
  have hagree : s.CopiesAgree := by
    obtain ⟨-, settings, background, -, -, rfl⟩ := start_eq_ok.mp hstart
    rfl
  refine ⟨zoomsAgree_run actions (zooms_start hstart).1, ?_, rfl, rfl, ?_,
    copiesAgree_run actions hagree⟩
  · intro a p hstamp
    have hstamps := stampsAt_act hstamp
    exact ⟨hstamps, hstamps.copiesAgree⟩
  · intro a hstamp hclear
    exact ⟨crop_zoomIn_act hstamp hclear, timeline_zoomIn_act hstamp hclear⟩

/-- A crop is drawn at three seconds, the zoom-in is marked anew at five, and the trim is cut
down in front of it. -/
theorem stamps_write_both_copies_marked :
    let source : Clip Exact := ⟨"clip.mp4", 10, 640, 360⟩
    let config : Config Exact := {}
    let container : Size Exact := ⟨640, 360⟩
    let s : Session Exact := {
      source := source
      crop := Cropper.fresh config.interaction.cropTuning source.frame (container.fit source.frame)
      timeline := Timeline.fresh config.interaction.timelineTuning 10 ⟨0, 1000⟩
      exportSettings := .standard
      background := .standard }
    let actions : List (SessionAction Exact) :=
      [.step (.seek 3), .step (.canvas .down 100 100), .step (.canvas .move 260 190),
        .step (.canvas .up 260 190), .step (.seek 5), .step .markZoomIn,
        .step (.timeline .down 0), .step (.timeline .move 400)]
    let t := s.run actions
    start source config container ⟨0, 1000⟩ = .ok s ∧ t.timeline.trimStart = 4
      ∧ t.timeline.zoomIn = some 5 ∧ t.CopiesAgree := by
  intro source config container s actions t
  have hstart : start source config container ⟨0, 1000⟩ = .ok s := by decide +kernel
  obtain ⟨-, -, -, -, -, hagree⟩ :=
    stamps_write_both_copies source config container ⟨0, 1000⟩ s actions hstart
  exact ⟨hstart, by decide +kernel, by decide +kernel, hagree (by decide +kernel)⟩

/-- A crop is drawn at the front, and its marker is dragged to four seconds; then another is
drawn at one second, with a trim that starts at four.  Neither time the copies agree. -/
theorem copies_may_differ :
    let source : Clip Exact := ⟨"clip.mp4", 10, 640, 360⟩
    let s : Session Exact := {
      source := source
      crop := Cropper.fresh ({} : Config Exact).interaction.cropTuning source.frame ⟨640, 360⟩
      timeline := Timeline.fresh ({} : Config Exact).interaction.timelineTuning 10 ⟨0, 1000⟩
      exportSettings := .standard
      background := .standard }
    let dragged := s.run
      [.step (.canvas .down 100 100), .step (.canvas .move 260 190),
        .step (.canvas .up 260 190), .step (.timeline .down 0), .step (.timeline .move 400)]
    let trimmed := s.run
      [.step (.timeline .down 0), .step (.timeline .move 400), .step (.timeline .up 400),
        .step (.seek 1), .step (.canvas .down 100 100), .step (.canvas .move 260 190)]
    let stamped := trimmed.apply (.canvas .up 260 190)
    start source {} ⟨640, 360⟩ ⟨0, 1000⟩ = .ok s
      ∧ dragged.crop.zoomIn = some 0 ∧ dragged.timeline.zoomIn = some 4
      ∧ stamped.2.commit.map (·.zoomIn) = some 1
      ∧ stamped.1.crop.zoomIn = some 1 ∧ stamped.1.timeline.zoomIn = some 4 := by
  decide +kernel

end Session
end GifEdit
