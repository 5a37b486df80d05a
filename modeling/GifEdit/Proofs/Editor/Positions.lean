/-
  GifEdit.Proofs.Editor.Positions
  ───────────────────────────────
  **TIMES AND THEIR POSITIONS ON THE TRACK.**

  If the track and the clip went on for ever, positions and times would be the same but for
  the unit and the origin, and `ruler` is the map from the ones to the others.  On a track
  that ends, both maps of a timeline clamp:

      timeAt x          = ruler of x clamped to the track
      positionOf time   = position on the ruler of the time clamped to the clip

  A clamp may be moved through the ruler, so either map after the other is a clamp.

  What a press hits is looked up by position.  A marker with a defined time has a position, and
  a press there is at no distance from it, so some marker is reached; which one is latched is
  decided by the order of the markers, but it is one that is reached as well.  All times of a
  timeline that operations lead to are defined.

  The lemmas:

    * `Spans.timeAt_positionOf`, `Spans.positionOf_timeAt`  — either map after the other,
    * `Spans.isNear_positionOf`  — a press where a time is drawn is near it,
    * `grabs_of_reaches`         — where a marker is reached, a marker is grabbed.

  Main result: `positions_tell_times`.
-/
import GifEdit.Proofs.Editor.Drags
import GifEdit.Proofs.Editor.Updates
import GifEdit.Proofs.Scalar.Increasing
import Mathlib.Tactic.FieldSimp
import Mathlib.Tactic.Ring

namespace GifEdit

open Exact

namespace Timeline

/-! ## §1. The ruler. -/

/-- A track of `w` from `l` on, and a clip of `d`. -/
structure Spans (l w d : ℚ) (t : Timeline Exact) : Prop where
  left : t.track.left = rational l
  width : t.track.width = rational w
  duration : t.duration = rational d
  width_pos : 0 < w
  duration_pos : 0 < d

namespace Spans

variable {l w d : ℚ} {t : Timeline Exact}

/-- The time of each position, as if the track and the clip went on for ever. -/
def ruler (h : t.Spans l w d) : ℚ ≃o ℚ where
  toFun x := (x - l) / w * d
  invFun time := l + time / d * w
  left_inv x := by
    have hw := h.width_pos.ne'
    have hd := h.duration_pos.ne'
    field_simp
    ring
  right_inv time := by
    have hw := h.width_pos.ne'
    have hd := h.duration_pos.ne'
    field_simp
    ring
  map_rel_iff' {x y} := by
    show (x - l) / w * d ≤ (y - l) / w * d ↔ x ≤ y
    rw [mul_le_mul_iff_left₀ h.duration_pos, div_le_div_iff_of_pos_right h.width_pos,
      sub_le_sub_iff_right]

theorem ruler_left (h : t.Spans l w d) : h.ruler l = 0 := by
  show (l - l) / w * d = 0
  rw [sub_self, zero_div, zero_mul]

theorem ruler_right (h : t.Spans l w d) : h.ruler (l + w) = d := by
  show (l + w - l) / w * d = d
  rw [add_sub_cancel_left, div_self h.width_pos.ne', one_mul]

theorem ruler_symm_zero (h : t.Spans l w d) : h.ruler.symm 0 = l :=
  h.ruler.symm_apply_eq.mpr h.ruler_left.symm

theorem ruler_symm_duration (h : t.Spans l w d) : h.ruler.symm d = l + w :=
  h.ruler.symm_apply_eq.mpr h.ruler_right.symm


/-- **The time of a position** is read off the ruler, within the track. -/
theorem timeAt_eq (h : t.Spans l w d) (x : Exact) :
    t.timeAt x = onRational h.ruler (Scalar.clamp x (rational l) (rational (l + w))) := by
  have hwide := not_le_of_pos (zero_lt_rational.mpr h.width_pos)
  unfold timeAt
  rw [h.left, h.width, h.duration, if_neg hwide, sub_rational, div_rational h.width_pos,
    onRational_onRational, clamp_share h.width_pos, mul_rational h.duration_pos,
    onRational_onRational]
  rfl

/-- **The position of a time** is read off its other side, within the clip. -/
theorem positionOf_eq (h : t.Spans l w d) (time : Exact) :
    t.positionOf time = onRational h.ruler.symm (Scalar.clamp time (rational 0) (rational d)) := by
  have hlong := not_le_of_pos (zero_lt_rational.mpr h.duration_pos)
  -- The clip starts at zero, so nothing is taken off before the share.
  have hshare := clamp_share h.duration_pos 0 time
  simp only [sub_zero, zero_add] at hshare
  unfold positionOf
  rw [h.left, h.width, h.duration, if_neg hlong, div_rational h.duration_pos, hshare,
    mul_rational h.width_pos, onRational_onRational, rational_add_left, onRational_onRational]
  rfl

/-! ## §2. Back and forth. -/

/-- A time that is drawn and read again is clamped to the clip. -/
theorem timeAt_positionOf (h : t.Spans l w d) (time : Exact) :
    t.timeAt (t.positionOf time) = Scalar.clamp time (rational 0) (rational d) := by
  rw [h.timeAt_eq, h.positionOf_eq]
  exact onRational_symm_clamp h.ruler.symm h.duration_pos.le h.ruler_symm_zero
    h.ruler_symm_duration time

/-- A position that is read and drawn again is clamped to the track. -/
theorem positionOf_timeAt (h : t.Spans l w d) (x : Exact) :
    t.positionOf (t.timeAt x) = Scalar.clamp x (rational l) (rational (l + w)) := by
  rw [h.positionOf_eq, h.timeAt_eq]
  exact onRational_symm_clamp h.ruler (le_add_of_nonneg_right h.width_pos.le) h.ruler_left
    h.ruler_right x

theorem timeAt_mono (h : t.Spans l w d) {x y : Exact} (hxy : x ≤ y) : t.timeAt x ≤ t.timeAt y := by
  rw [h.timeAt_eq, h.timeAt_eq, onRational_le h.ruler.strictMono]
  exact Scalar.clamp_mono (rational_le.mpr (le_add_of_nonneg_right h.width_pos.le)) hxy

theorem positionOf_mono (h : t.Spans l w d) {time time' : Exact} (hle : time ≤ time') :
    t.positionOf time ≤ t.positionOf time' := by
  rw [h.positionOf_eq, h.positionOf_eq, onRational_le h.ruler.symm.strictMono]
  exact Scalar.clamp_mono (rational_le.mpr h.duration_pos.le) hle

/-- A defined time has a finite position. -/
theorem exists_positionOf (h : t.Spans l w d) {time : Exact}
    (htime : Scalar.isUndefined time = false) : ∃ q, t.positionOf time = rational q := by
  obtain ⟨hlo, hhi⟩ := Scalar.clamp_mem (rational_le.mpr h.duration_pos.le) htime
  obtain ⟨q, hq, -⟩ := exists_of_mem hlo hhi
  refine ⟨h.ruler.symm q, ?_⟩
  rw [h.positionOf_eq, hq]
  rfl

/-- **A press where a time is drawn is near it.** -/
theorem isNear_positionOf (h : t.Spans l w d) (hradius : 0 ≤ t.tuning.markerHitRadius)
    {time : Exact} (htime : Scalar.isUndefined time = false) :
    t.isNear (t.positionOf time) time = true := by
  -- Only a finite position is at no distance from itself.
  obtain ⟨q, hq⟩ := h.exists_positionOf htime
  have hdistance : Scalar.abs (t.positionOf time - t.positionOf time) = 0 := by
    rw [hq, rational_sub, sub_self, abs_rational, abs_zero, literal_eq, Nat.cast_zero]
  unfold isNear
  rw [hdistance]
  exact decide_eq_true hradius

end Spans

/-! ## §3. Presses. -/

section Presses

variable {α : Type} [Scalar α] {t : Timeline α}

/-- A press at `x` latches a marker that is drawn within the hit radius, and does nothing
else. -/
structure Grabs (t : Timeline α) (x : α) (target : DragTarget) : Prop where
  marker : target ∈ DragTarget.markers
  near : ∃ time ∈ t.place target, Scalar.abs (x - t.positionOf time) ≤ t.tuning.markerHitRadius
  press : t.down x = ({ t with drag := target }, {})

/-- Anything but the scrubber is only latched. -/
theorem down_of_ne_scrubber {x : α} (h : t.hit x ≠ .scrubber) :
    t.down x = ({ t with drag := t.hit x }, {}) := by
  unfold down
  dsimp only
  split
  · exact absurd ‹t.hit x = .scrubber› h
  · rfl

/-- **Where any marker is reached, a marker is grabbed**: the first one that is reached. -/
theorem grabs_of_reaches {x : α} {item : DragTarget} (hitem : item ∈ DragTarget.markers)
    (hreached : t.reaches x item = true) : t.Grabs x (t.hit x) := by
  cases hfind : DragTarget.markers.find? (t.reaches x) with
  | none => exact absurd hreached (List.find?_eq_none.mp hfind item hitem)
  | some target =>
      -- This need not be the item, but it was found because it is reached, too.
      have hhit : t.hit x = target := by
        rw [hit_eq, hfind]
        rfl
      have hmarker : target ∈ DragTarget.markers := List.mem_of_find?_eq_some hfind
      have htarget : t.reaches x target = true := List.find?_some hfind
      obtain ⟨time, htime, hnear⟩ := (Option.any_eq_true _ _).mp htarget
      rw [hhit]
      refine ⟨hmarker, ⟨time, htime, of_decide_eq_true hnear⟩, ?_⟩
      have hlatched : t.hit x ≠ .scrubber := by
        rw [hhit]
        exact DragTarget.ne_scrubber_of_mem hmarker
      rw [down_of_ne_scrubber hlatched, hhit]

/-- Every item of a defined timeline stands at a defined time. -/
theorem Defined.place (h : t.Defined) {item : DragTarget} {time : α}
    (htime : time ∈ t.place item) : Scalar.isUndefined time = false := by
  cases item with
  | none => exact nomatch htime
  | scrubber =>
      obtain rfl := Option.mem_some.mp htime
      exact h.playhead
  | trimStart =>
      obtain rfl := Option.mem_some.mp htime
      exact h.trimStart
  | trimEnd =>
      obtain rfl := Option.mem_some.mp htime
      exact h.trimEnd
  | zoomIn => exact h.zoomIn time htime
  | zoomOut => exact h.zoomOut time htime

/-- The timelines that operations lead to, tuned in any way, on a clip of any duration. -/
def Reachable (t : Timeline α) : Prop :=
  ∃ tuning duration track actions, t = (fresh tuning duration track).run actions

theorem Reachable.defined [OrderedScalar α] (h : t.Reachable) : t.Defined := by
  obtain ⟨tuning, duration, track, actions, rfl⟩ := h
  exact defined_run actions (defined_fresh tuning duration track)

end Presses

/-! ## §4. Every timeline that can be seen. -/

/-- A finite track and a finite clip, neither of them empty. -/
theorem exists_spans {t : Timeline Exact} (hleft : Scalar.isFinite t.track.left = true)
    (hwidth : Scalar.isFinite t.track.width = true) (hduration : Scalar.isFinite t.duration = true)
    (hwide : 0 < t.track.width) (hlong : 0 < t.duration) : ∃ l w d, t.Spans l w d := by
  obtain ⟨l, hl⟩ := isFinite_iff.mp hleft
  obtain ⟨w, hw⟩ := isFinite_iff.mp hwidth
  obtain ⟨d, hd⟩ := isFinite_iff.mp hduration
  rw [hw, zero_lt_rational] at hwide
  rw [hd, zero_lt_rational] at hlong
  exact ⟨l, w, d, hl, hw, hd, hwide, hlong⟩

/-- **POSITIONS TELL TIMES**, on any timeline with a finite track and clip that are not empty:
a time of the clip is read where it is drawn, a position is drawn where it was up to the ends
of the track, and both maps keep the order.  And where operations led to the timeline, a press
where a marker is drawn grabs a marker, whichever lie on top of each other. -/
theorem positions_tell_times (t : Timeline Exact)
    (hleft : Scalar.isFinite t.track.left = true) (hwidth : Scalar.isFinite t.track.width = true)
    (hduration : Scalar.isFinite t.duration = true) (hwide : 0 < t.track.width)
    (hlong : 0 < t.duration) (hradius : 0 ≤ t.tuning.markerHitRadius) :
    (∀ time, 0 ≤ time → time ≤ t.duration → t.timeAt (t.positionOf time) = time)
      ∧ (∀ x, t.positionOf (t.timeAt x)
          = Scalar.clamp x t.track.left (t.track.left + t.track.width))
      ∧ (∀ x y, x ≤ y → t.timeAt x ≤ t.timeAt y)
      ∧ (∀ time time', time ≤ time' → t.positionOf time ≤ t.positionOf time')
      ∧ (t.Reachable → ∀ marker ∈ DragTarget.markers, ∀ time ∈ t.place marker,
          let x := t.positionOf time
          let pressed := t.down x
          t.Grabs x pressed.1.drag ∧ pressed.1.drag ≠ .scrubber ∧ pressed.2.seek = none) := by
  obtain ⟨l, w, d, h⟩ := exists_spans hleft hwidth hduration hwide hlong
  refine ⟨?_, ?_, fun x y => h.timeAt_mono, fun time time' => h.positionOf_mono, ?_⟩
  · intro time hstart hend
    rw [literal_eq, Nat.cast_zero] at hstart
    rw [h.duration] at hend
    rw [h.timeAt_positionOf, clamp_of_mem hstart hend]
  · intro x
    rw [h.left, h.width, rational_add, h.positionOf_timeAt]
  · intro hreachable marker hmarker time htime x pressed
    -- The press is where the marker is drawn, so it reaches this one or an earlier one.
    have hnear := h.isNear_positionOf hradius (hreachable.defined.place htime)
    have hreached : t.reaches x marker = true :=
      (Option.any_eq_true _ _).mpr ⟨time, htime, hnear⟩
    have hgrabs := grabs_of_reaches hmarker hreached
    have hpressed : pressed = ({ t with drag := t.hit x }, {}) := hgrabs.press
    rw [hpressed]
    exact ⟨hgrabs, DragTarget.ne_scrubber_of_mem hgrabs.marker, rfl⟩

/-- Both zoom markers and the end of the trim lie within one radius, so a press on any of them
grabs the zoom-out. -/
theorem positions_tell_times_overlapping :
    let config : Config Exact := {}
    let t := (fresh config.interaction.timelineTuning 10 ⟨100, 500⟩).run
      [.setZoomIn 3, .placeZoomOut 3.1, .handle ⟨.down, 600, 0⟩, .handle ⟨.move, 256, 0⟩]
    t.trimEnd = 3.12 ∧ t.positionOf 3 = 250 ∧ t.positionOf 3.12 = 256
      ∧ t.timeAt (t.positionOf 3) = 3
      ∧ t.positionOf (t.timeAt 700) = 600
      ∧ t.Grabs 250 .zoomOut ∧ t.Grabs 256 .zoomOut := by
  intro config t
  have hin : t.positionOf 3 = 250 := by decide +kernel
  have hend : t.positionOf 3.12 = 256 := by decide +kernel
  obtain ⟨htime, hposition, -, -, hpress⟩ := positions_tell_times t (by decide +kernel)
    (by decide +kernel) (by decide +kernel) (by decide +kernel) (by decide +kernel)
    (by decide +kernel)
  have hreachable : t.Reachable := ⟨_, _, _, _, rfl⟩
  have hgrabIn := (hpress hreachable .zoomIn (by decide) 3 (by decide +kernel)).1
  have hgrabEnd := (hpress hreachable .trimEnd (by decide) 3.12 (by decide +kernel)).1
  rw [hin, show (t.down 250).1.drag = .zoomOut by decide +kernel] at hgrabIn
  rw [hend, show (t.down 256).1.drag = .zoomOut by decide +kernel] at hgrabEnd
  exact ⟨by decide +kernel, hin, hend, htime 3 (by decide +kernel) (by decide +kernel),
    (hposition 700).trans (by decide +kernel), hgrabIn, hgrabEnd⟩

end Timeline
end GifEdit
