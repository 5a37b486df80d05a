/-
  GifEdit.Proofs.Editor.Drags
  ───────────────────────────
  **WHAT A DRAG ON THE TIMELINE MOVES.**

  A press latches one target, and every motion moves that target, wherever the pointer is.
  The playhead follows, and an end of the trim pushes the zoom markers before it:

      scrubber       playhead
      end of trim    this end, playhead, both zoom markers
      zoom marker    this marker, playhead

  `Drags` says that nothing else has moved.  A motion computes the place of its target from
  what it does not move, so the place depends on where the pointer ends and not on its way.

  Markers are pushed and never made or dropped.  A zoom-out is dropped where the trim has no
  room for the gap, so it has to be shown that no drag makes the trim that short: it keeps
  its least length, which has room for the gap, or else the length it had.

  Main results:

    * `drag_owns_its_target`  — for every timeline, what moves and where to,
    * `drags_keep_markers`    — for every timeline that operations lead to.
-/
import GifEdit.Proofs.Editor.Markers

namespace GifEdit

/-! ## §1. Targets and their places. -/

namespace DragTarget

/-- Whether the target is an end of the trim. -/
def isTrim : DragTarget → Bool
  | .trimStart | .trimEnd => true
  | .none | .scrubber | .zoomIn | .zoomOut => false

/-- Whether the target is a zoom marker. -/
def isZoom : DragTarget → Bool
  | .zoomIn | .zoomOut => true
  | .none | .scrubber | .trimStart | .trimEnd => false

/-- Whether a drag of the target may move an item. -/
def moves (target item : DragTarget) : Bool :=
  item = target || item = .scrubber || (target.isTrim && item.isZoom)

/-- The markers, in the order in which a press tries them. -/
def markers : List DragTarget := [.zoomOut, .zoomIn, .trimEnd, .trimStart]

theorem ne_scrubber_of_mem {target : DragTarget} (h : target ∈ markers) : target ≠ .scrubber := by
  rintro rfl
  exact absurd h (by decide)

end DragTarget

namespace Timeline

variable {α : Type}

/-- The time at which an item stands, if it is there. -/
def place (t : Timeline α) : DragTarget → Option α
  | .none => .none
  | .scrubber => some t.playhead
  | .trimStart => some t.trimStart
  | .trimEnd => some t.trimEnd
  | .zoomIn => t.zoomIn
  | .zoomOut => t.zoomOut

/-- Whether an item follows the pointer: a zoom marker has to be there, and a zoom-out is
dragged against the zoom-in. -/
def follows (t : Timeline α) : DragTarget → Bool
  | .none => false
  | .scrubber | .trimStart | .trimEnd => true
  | .zoomIn => t.zoomIn.isSome
  | .zoomOut => t.zoomIn.isSome && t.zoomOut.isSome

/-- `t'` is `t` after a drag of a target: what the target does not move has its place, and
the target can still be dragged if it could. -/
structure Drags (target : DragTarget) (t t' : Timeline α) : Prop where
  tuning : t'.tuning = t.tuning
  duration : t'.duration = t.duration
  track : t'.track = t.track
  drag : t'.drag = t.drag
  others : ∀ item, target.moves item = false → t'.place item = t.place item
  kept : t'.follows target = t.follows target

namespace Drags

variable {target : DragTarget} {t t' t'' : Timeline α}

theorem refl (target : DragTarget) (t : Timeline α) : Drags target t t :=
  ⟨rfl, rfl, rfl, rfl, fun _ _ => rfl, rfl⟩

theorem trans (h : Drags target t t') (h' : Drags target t' t'') : Drags target t t'' where
  tuning := h'.tuning.trans h.tuning
  duration := h'.duration.trans h.duration
  track := h'.track.trans h.track
  drag := h'.drag.trans h.drag
  others item hitem := (h'.others item hitem).trans (h.others item hitem)
  kept := h'.kept.trans h.kept

theorem trimStart_eq (h : Drags target t t') (htarget : target.moves .trimStart = false) :
    t'.trimStart = t.trimStart :=
  Option.some.inj (h.others .trimStart htarget)

theorem trimEnd_eq (h : Drags target t t') (htarget : target.moves .trimEnd = false) :
    t'.trimEnd = t.trimEnd :=
  Option.some.inj (h.others .trimEnd htarget)

/-- Positions on the screen mean the same times. -/
theorem timeAt_eq [Scalar α] (h : Drags target t t') (x : α) : t'.timeAt x = t.timeAt x := by
  unfold timeAt
  rw [h.track, h.duration]

end Drags

/-! ## §2. One motion. -/

variable [Scalar α]

/-- The playhead follows every drag. -/
theorem drags_seek (target : DragTarget) (t : Timeline α) (time : α) :
    Drags target t (t.seek time).1 := by
  refine ⟨rfl, rfl, rfl, rfl, ?_, ?_⟩
  · intro item hitem
    cases item with
    | scrubber => exact absurd hitem (by simp [DragTarget.moves])
    | none | trimStart | trimEnd | zoomIn | zoomOut => rfl
  · cases target <;> rfl

/-- Both ends of the trim push the markers. -/
theorem drags_reclampZoom {target : DragTarget} (h : target.isTrim = true) (t : Timeline α) :
    Drags target t t.reclampZoom.1 := by
  refine ⟨rfl, rfl, rfl, rfl, ?_, ?_⟩
  · intro item hitem
    cases item with
    | zoomIn | zoomOut => exact absurd hitem (by simp [DragTarget.moves, h, DragTarget.isZoom])
    | none | scrubber | trimStart | trimEnd => rfl
  · cases target with
    | trimStart | trimEnd => rfl
    | none | scrubber | zoomIn | zoomOut => exact nomatch h

/-- Moving the start of the trim moves its own place, the markers and the playhead. -/
theorem drags_setTrimStart (t : Timeline α) (start : α) :
    Drags .trimStart t (t.setTrimStart start).1 := by
  have hset : Drags .trimStart t { t with trimStart := start } := by
    refine ⟨rfl, rfl, rfl, rfl, ?_, rfl⟩
    intro item hitem
    cases item with
    | trimStart => exact nomatch hitem
    | none | scrubber | trimEnd | zoomIn | zoomOut => rfl
  exact (hset.trans (drags_reclampZoom rfl _)).trans (drags_seek _ _ start)

/-- Moving its end does the same on the other side. -/
theorem drags_setTrimEnd (t : Timeline α) (stop : α) :
    Drags .trimEnd t (t.setTrimEnd stop).1 := by
  have hset : Drags .trimEnd t { t with trimEnd := stop } := by
    refine ⟨rfl, rfl, rfl, rfl, ?_, rfl⟩
    intro item hitem
    cases item with
    | trimEnd => exact nomatch hitem
    | none | scrubber | trimStart | zoomIn | zoomOut => rfl
  exact (hset.trans (drags_reclampZoom rfl _)).trans (drags_seek _ _ stop)

/-- A zoom-in that is there is put at another time. -/
theorem drags_zoomIn {t : Timeline α} (hin : t.zoomIn.isSome = true) (time : α) :
    Drags .zoomIn t ({ t with zoomIn := some time }.seek time).1 := by
  have hset : Drags .zoomIn t { t with zoomIn := some time } := by
    refine ⟨rfl, rfl, rfl, rfl, ?_, hin.symm⟩
    intro item hitem
    cases item with
    | zoomIn => exact nomatch hitem
    | none | scrubber | trimStart | trimEnd | zoomOut => rfl
  exact hset.trans (drags_seek _ _ time)

/-- A zoom-out that is there is put at another time. -/
theorem drags_zoomOut {t : Timeline α} (hout : t.zoomOut.isSome = true) (time : α) :
    Drags .zoomOut t ({ t with zoomOut := some time }.seek time).1 := by
  have hset : Drags .zoomOut t { t with zoomOut := some time } := by
    refine ⟨rfl, rfl, rfl, rfl, ?_, congrArg (t.zoomIn.isSome && ·) hout.symm⟩
    intro item hitem
    cases item with
    | zoomOut => exact nomatch hitem
    | none | scrubber | trimStart | trimEnd | zoomIn => rfl
  exact hset.trans (drags_seek _ _ time)

/-- What does not follow the pointer stays, and so does the whole timeline. -/
theorem move_of_not_follows {t : Timeline α} (h : t.follows t.drag = false) (x : α) :
    (t.move x).1 = t := by
  unfold move
  unfold follows at h
  cases hdrag : t.drag with
  | none => rfl
  | scrubber | trimStart | trimEnd =>
      rw [hdrag] at h
      exact nomatch h
  | zoomIn =>
      cases hin : t.zoomIn with
      | none => rfl
      | some start =>
          rw [hdrag, hin] at h
          exact nomatch h
  | zoomOut =>
      cases hin : t.zoomIn with
      | none => rfl
      | some start =>
          cases hout : t.zoomOut with
          | none => rfl
          | some out =>
              rw [hdrag, hin, hout] at h
              exact nomatch h

/-- A zoom-in is dragged as far as the zoom-out lets it. -/
theorem move_zoomIn {t : Timeline α} (hdrag : t.drag = .zoomIn) (hin : t.zoomIn.isSome = true)
    (x : α) :
    let time := clampBetween (t.timeAt x) t.trimStart
      (t.zoomOut.elim t.trimEnd (· - t.tuning.minZoomGap))
    (t.move x).1 = ({ t with zoomIn := some time }.seek time).1 := by
  obtain ⟨start, hin⟩ := Option.isSome_iff_exists.mp hin
  unfold move
  rw [hdrag, hin]
  cases t.zoomOut with
  | none | some => rfl

/-- A zoom-out is dragged between the zoom-in and the end of the trim. -/
theorem move_zoomOut {t : Timeline α} (hdrag : t.drag = .zoomOut) {start : α}
    (hin : t.zoomIn = some start) (hout : t.zoomOut.isSome = true) (x : α) :
    let time := clampBetween (t.timeAt x) (start + t.tuning.minZoomGap) t.trimEnd
    (t.move x).1 = ({ t with zoomOut := some time }.seek time).1 := by
  obtain ⟨out, hout⟩ := Option.isSome_iff_exists.mp hout
  unfold move
  rw [hdrag, hin, hout]

/-- **A motion moves the latched target**, and what the target moves. -/
theorem drags_move (t : Timeline α) (x : α) : Drags t.drag t (t.move x).1 := by
  -- A marker that is not there does not follow, whatever was grabbed.
  cases hfollows : t.follows t.drag with
  | false =>
      rw [move_of_not_follows hfollows]
      exact .refl _ t
  | true =>
      unfold follows at hfollows
      cases hdrag : t.drag with
      | none =>
          rw [hdrag] at hfollows
          exact nomatch hfollows
      | scrubber =>
          unfold move
          rw [hdrag]
          exact drags_seek _ t _
      | trimStart =>
          unfold move
          rw [hdrag]
          exact drags_setTrimStart t _
      | trimEnd =>
          unfold move
          rw [hdrag]
          exact drags_setTrimEnd t _
      | zoomIn =>
          rw [hdrag] at hfollows
          rw [move_zoomIn hdrag hfollows]
          exact drags_zoomIn hfollows _
      | zoomOut =>
          rw [hdrag, Bool.and_eq_true] at hfollows
          obtain ⟨start, hin⟩ := Option.isSome_iff_exists.mp hfollows.1
          rw [move_zoomOut hdrag hin hfollows.2]
          exact drags_zoomOut hfollows.2 _

/-- **Where a target is put** depends on nothing that its drag has moved. -/
theorem Drags.place_move {target : DragTarget} {t t' : Timeline α} (h : Drags target t t')
    (hdrag : t.drag = target) (hfollows : t.follows target = true) (x : α) :
    (t'.move x).1.place target = (t.move x).1.place target := by
  have hdrag' : t'.drag = target := h.drag.trans hdrag
  have hfollows' : t'.follows target = true := h.kept.trans hfollows
  cases target with
  | none => exact nomatch hfollows
  | scrubber =>
      unfold move
      rw [hdrag, hdrag']
      show some (clampBetween (t'.timeAt x) 0 t'.duration)
        = some (clampBetween (t.timeAt x) 0 t.duration)
      rw [h.timeAt_eq, h.duration]
  | trimStart =>
      unfold move
      rw [hdrag, hdrag']
      show some (Scalar.max (Scalar.min (t'.timeAt x) (t'.trimEnd - t'.tuning.minTrimGap)) 0)
        = some (Scalar.max (Scalar.min (t.timeAt x) (t.trimEnd - t.tuning.minTrimGap)) 0)
      rw [h.timeAt_eq, h.trimEnd_eq rfl, h.tuning]
  | trimEnd =>
      unfold move
      rw [hdrag, hdrag']
      show some (Scalar.min (Scalar.max (t'.timeAt x) (t'.trimStart + t'.tuning.minTrimGap))
          t'.duration)
        = some (Scalar.min (Scalar.max (t.timeAt x) (t.trimStart + t.tuning.minTrimGap))
          t.duration)
      rw [h.timeAt_eq, h.trimStart_eq rfl, h.tuning, h.duration]
  | zoomIn =>
      have hout : t'.zoomOut = t.zoomOut := h.others .zoomOut rfl
      rw [move_zoomIn hdrag hfollows, move_zoomIn hdrag' hfollows', h.timeAt_eq,
        h.trimStart_eq rfl, h.trimEnd_eq rfl, hout, h.tuning]
      rfl
  | zoomOut =>
      have hin : t'.zoomIn = t.zoomIn := h.others .zoomIn rfl
      unfold follows at hfollows hfollows'
      rw [Bool.and_eq_true] at hfollows hfollows'
      obtain ⟨start, hstart⟩ := Option.isSome_iff_exists.mp hfollows.1
      rw [move_zoomOut hdrag hstart hfollows.2,
        move_zoomOut hdrag' (hin.trans hstart) hfollows'.2, h.timeAt_eq, h.trimEnd_eq rfl,
        h.tuning]
      rfl

/-! ## §3. Motions in a row. -/

/-- The timeline after motions to some positions. -/
def moveAll (t : Timeline α) (xs : List α) : Timeline α := xs.foldl (fun t x => (t.move x).1) t

/-- **Motions in a row** move what one of them moves. -/
theorem drags_moveAll (xs : List α) : ∀ t : Timeline α, Drags t.drag t (t.moveAll xs) := by
  induction xs with
  | nil =>
      intro t
      exact .refl t.drag t
  | cons x xs ih =>
      intro t
      have hmove := t.drags_move x
      have hrest := ih (t.move x).1
      rw [hmove.drag] at hrest
      exact hmove.trans hrest

/-- **The way there does not matter**, only the last position. -/
theorem place_moveAll (t : Timeline α) (xs : List α) (last : α) :
    (t.moveAll (xs ++ [last])).place t.drag = (t.move last).1.place t.drag := by
  have hbefore := drags_moveAll xs t
  have hlast : t.moveAll (xs ++ [last]) = ((t.moveAll xs).move last).1 := List.foldl_append
  rw [hlast]
  cases hfollows : t.follows t.drag with
  | true => exact hbefore.place_move rfl hfollows last
  | false =>
      -- What does not follow the pointer is where it was at the press.
      have hstay : t.moveAll xs = t := by
        clear hbefore hlast
        induction xs with
        | nil => rfl
        | cons x xs ih =>
            show (t.move x).1.moveAll xs = t
            rw [move_of_not_follows hfollows]
            exact ih
      rw [hstay]

/-! ## §4. Presses. -/

/-- A press latches what it hits, and moves the playhead at most. -/
theorem drags_down (t : Timeline α) (x : α) :
    Drags (t.hit x) { t with drag := t.hit x } (t.down x).1 := by
  unfold down
  dsimp only
  cases t.hit x with
  | scrubber => exact drags_seek _ _ _
  | none | trimStart | trimEnd | zoomIn | zoomOut => exact .refl _ _

/-- Whether a press at `x` reaches an item: it is there and drawn within the hit radius. -/
def reaches (t : Timeline α) (x : α) (item : DragTarget) : Bool := (t.place item).any (t.isNear x)

/-- **A press hits the first marker it reaches**, and the scrubber if it reaches none. -/
theorem hit_eq (t : Timeline α) (x : α) :
    t.hit x = (DragTarget.markers.find? (t.reaches x)).getD .scrubber := by
  have hcandidates : [(DragTarget.zoomOut, t.zoomOut), (.zoomIn, t.zoomIn),
      (.trimEnd, some t.trimEnd), (.trimStart, some t.trimStart)]
        = DragTarget.markers.map fun item => (item, t.place item) := rfl
  have hreaches : ((fun c : DragTarget × Option α => c.2.any (t.isNear x)) ∘ fun item =>
      (item, t.place item)) = t.reaches x := rfl
  unfold hit
  dsimp only
  rw [hcandidates, List.find?_map, hreaches]
  cases DragTarget.markers.find? (t.reaches x) with
  | none | some item => rfl

/-- What a press hits is there. -/
theorem place_hit_isSome (t : Timeline α) (x : α) : (t.place (t.hit x)).isSome = true := by
  rw [hit_eq]
  cases hfind : DragTarget.markers.find? (t.reaches x) with
  | none => rfl
  | some item =>
      have hreaches : t.reaches x item = true := List.find?_some hfind
      exact Option.isSome_of_any hreaches

/-- **THE LATCHED TARGET OWNS THE DRAG**: through any motions after a press it stays latched,
nothing moves but what it moves, and it ends where one motion straight to the last position
would put it.  A release or the pointer leaving ends the drag. -/
theorem drag_owns_its_target (t : Timeline α) (press : α) (way : List α) (last x y : α) :
    let target := t.hit press
    let held := (t.down press).1
    let done := held.moveAll (way ++ [last])
    (t.place target).isSome = true
      ∧ held.drag = target ∧ (held.moveAll way).drag = target
      ∧ Drags target { t with drag := target } (held.moveAll way)
      ∧ done.place target = (held.move last).1.place target
      ∧ (done.handle ⟨.up, x, y⟩).1.drag = .none
      ∧ (done.handle ⟨.leave, x, y⟩).1.drag = .none := by
  intro target held done
  have hpress : Drags target { t with drag := target } held := t.drags_down press
  have hheld : held.drag = target := hpress.drag
  have hway := drags_moveAll way held
  rw [hheld] at hway
  have hplace := held.place_moveAll way last
  rw [hheld] at hplace
  exact ⟨t.place_hit_isSome press, hheld, hway.drag.trans hheld, hpress.trans hway, hplace,
    rfl, rfl⟩

/-- The start of the trim is dragged over the zoom markers and back again.  It ends where a
motion straight there puts it, and the markers stay where they were pushed. -/
theorem drag_owns_its_target_there_and_back :
    let config : Config Exact := {}
    let t := (fresh config.interaction.timelineTuning 10 ⟨0, 1000⟩).run
      [.restore ⟨0, 9⟩ ⟨some 2, some 3⟩]
    let held := (t.down 0).1
    let done := held.moveAll [600, 100]
    t.hit 0 = .trimStart ∧ held.drag = .trimStart
      ∧ done.place .trimStart = some 1
      ∧ done.place .trimStart = (held.move 100).1.place .trimStart
      ∧ (held.moveAll [600]).place .trimStart = some 6
      ∧ (held.moveAll [600]).place .trimEnd = t.place .trimEnd
      ∧ done.zoomIn = some 6 ∧ done.zoomOut = some 6.1 ∧ (held.move 100).1.zoomIn = some 2
      ∧ (done.handle ⟨.up, 100, 0⟩).1.drag = .none := by
  intro config t held done
  have hhit : t.hit 0 = .trimStart := by decide +kernel
  obtain ⟨-, hheld, -, hway, hplace, hup, -⟩ := t.drag_owns_its_target 0 [600] 100 100 0
  rw [hhit] at hheld hway hplace
  exact ⟨hhit, hheld, by decide +kernel, hplace, by decide +kernel, hway.others .trimEnd rfl,
    by decide +kernel, by decide +kernel, by decide +kernel, hup⟩

end Timeline

/-! ## §5. Markers are kept. -/

namespace Timeline

open Exact

/-- A zoom-out is dropped only for want of a zoom-in or of room for the gap. -/
theorem reclampZoom_zoomOut_isSome {α : Type} [Scalar α] {t : Timeline α}
    (h : t.zoomOut.isSome = true →
      t.zoomIn.isSome = true ∧ t.tuning.minZoomGap ≤ t.trimEnd - t.trimStart) :
    t.reclampZoom.1.zoomOut.isSome = t.zoomOut.isSome := by
  unfold reclampZoom
  cases hout : t.zoomOut with
  | none =>
      cases t.zoomIn with
      | none | some => rfl
  | some out =>
      obtain ⟨hin, hroom⟩ := h (by rw [hout]; rfl)
      obtain ⟨start, hstart⟩ := Option.isSome_iff_exists.mp hin
      simp only [hstart, hroom, if_true]
      rfl

variable {gap trimGap d p s e : ℚ} {t : Timeline Exact}

/-- Where there is a zoom-out, there is a zoom-in, and room for the gap. -/
theorem Ordered.room (h : t.Ordered gap trimGap d p s e) (hout : t.zoomOut.isSome = true) :
    t.zoomIn.isSome = true ∧ gap ≤ e - s := by
  have hzoom := h.zoom
  unfold zoomWindow at hzoom
  generalize t.zoomIn = zoomIn, t.zoomOut = zoomOut at hzoom hout
  cases hzoom with
  | unset => exact nomatch hout
  | zoomIn _ _ => exact nomatch hout
  | both hstart hroom hstop => exact ⟨rfl, by linarith⟩

/-- With room in the new trim, moving its start keeps the zoom-out. -/
theorem setTrimStart_zoomOut_isSome (hgap : t.tuning.minZoomGap = rational gap)
    (hstop : t.trimEnd = rational e)
    (hroom : t.zoomOut.isSome = true → t.zoomIn.isSome = true ∧ gap ≤ e - s) :
    (t.setTrimStart (rational s)).1.zoomOut.isSome = t.zoomOut.isSome := by
  refine reclampZoom_zoomOut_isSome (t := { t with trimStart := rational s }) ?_
  intro hout
  obtain ⟨hin, hlong⟩ := hroom hout
  refine ⟨hin, ?_⟩
  show t.tuning.minZoomGap ≤ t.trimEnd - rational s
  rw [hgap, hstop, rational_sub, rational_le]
  exact hlong

/-- With room in the new trim, moving its end keeps the zoom-out. -/
theorem setTrimEnd_zoomOut_isSome (hgap : t.tuning.minZoomGap = rational gap)
    (hstart : t.trimStart = rational s)
    (hroom : t.zoomOut.isSome = true → t.zoomIn.isSome = true ∧ gap ≤ e - s) :
    (t.setTrimEnd (rational e)).1.zoomOut.isSome = t.zoomOut.isSome := by
  refine reclampZoom_zoomOut_isSome (t := { t with trimEnd := rational e }) ?_
  intro hout
  obtain ⟨hin, hlong⟩ := hroom hout
  refine ⟨hin, ?_⟩
  show t.tuning.minZoomGap ≤ rational e - t.trimStart
  rw [hgap, hstart, rational_sub, rational_le]
  exact hlong

/-- **No motion drops the zoom-out**, and none makes one. -/
theorem move_zoomOut_isSome (h : t.Ordered gap trimGap d p s e) (x : Exact) :
    (t.move x).1.zoomOut.isSome = t.zoomOut.isSome := by
  have hdrags := t.drags_move x
  obtain ⟨p', s', e', h', hlen⟩ := ordered_move h x
  -- The trim keeps its least length, which has room for the gap, or the length it had.
  have hroom (hout : t.zoomOut.isSome = true) : t.zoomIn.isSome = true ∧ gap ≤ e' - s' := by
    obtain ⟨hin, hlong⟩ := h.room hout
    exact ⟨hin, (le_min h.gaps.ordered hlong).trans hlen⟩
  cases hdrag : t.drag with
  | none | scrubber | zoomIn =>
      rw [hdrag] at hdrags
      exact congrArg Option.isSome (hdrags.others .zoomOut rfl)
  | zoomOut =>
      cases hfollows : t.follows t.drag with
      | false => rw [move_of_not_follows hfollows]
      | true =>
          have hkept := hdrags.kept.trans hfollows
          rw [hdrag] at hfollows hkept
          unfold follows at hfollows hkept
          rw [Bool.and_eq_true] at hfollows hkept
          exact hkept.2.trans hfollows.2.symm
  | trimStart =>
      obtain ⟨start, hmove⟩ : ∃ start, (t.move x).1 = (t.setTrimStart start).1 := by
        unfold move
        rw [hdrag]
        exact ⟨_, rfl⟩
      rw [hmove] at h' ⊢
      obtain rfl : start = rational s' := h'.start
      exact setTrimStart_zoomOut_isSome h.gaps.zoom_eq h'.stop hroom
  | trimEnd =>
      obtain ⟨stop, hmove⟩ : ∃ stop, (t.move x).1 = (t.setTrimEnd stop).1 := by
        unfold move
        rw [hdrag]
        exact ⟨_, rfl⟩
      rw [hmove] at h' ⊢
      obtain rfl : stop = rational e' := h'.stop
      exact setTrimEnd_zoomOut_isSome h.gaps.zoom_eq h'.start hroom

/-- No event drops or makes a zoom-out. -/
theorem handle_zoomOut_isSome (h : t.Ordered gap trimGap d p s e) (event : PointerEvent Exact) :
    (t.handle event).1.zoomOut.isSome = t.zoomOut.isSome := by
  unfold handle
  cases event.phase with
  | move => exact move_zoomOut_isSome h event.x
  | up | leave => rfl
  | down =>
      unfold down
      dsimp only
      split <;> rfl

/-- **Events in a row** leave the markers that are there, and no others. -/
theorem run_handle_isSome (events : List (PointerEvent Exact)) :
    ∀ {t : Timeline Exact} {p s e : ℚ}, t.Ordered gap trimGap d p s e →
      (t.run (events.map .handle)).zoomIn.isSome = t.zoomIn.isSome
        ∧ (t.run (events.map .handle)).zoomOut.isSome = t.zoomOut.isSome := by
  induction events with
  | nil =>
      intro t p s e _
      exact ⟨rfl, rfl⟩
  | cons event events ih =>
      intro t p s e h
      obtain ⟨p', s', e', h', -⟩ := ordered_handle h event
      obtain ⟨hin, hout⟩ := ih h'
      exact ⟨hin.trans (t.handle_isSome event), hout.trans (handle_zoomOut_isSome h event)⟩

/-- A clip of any given duration starts in order: what is no duration counts as none. -/
theorem exists_ordered_fresh {u : TimelineTuning Exact} (hu : u.HasGaps gap trimGap)
    (duration : Exact) (track : Track Exact) :
    ∃ d, (fresh u duration track).Ordered gap trimGap d 0 0 d := by
  have hzero := ordered_fresh hu le_rfl track
  cases duration with
  | rational q =>
      refine ⟨max q 0, ?_⟩
      have hclean : fresh u (rational q) track = fresh u (rational (max q 0)) track := by
        unfold fresh
        simp
      rw [hclean]
      exact ordered_fresh hu (le_max_right q 0) track
  | undefined | negInfinity | posInfinity => exact ⟨0, hzero⟩

/-- **DRAGS KEEP THE MARKERS**: on a timeline that any operations led to, tuned by an accepted
configuration, no run of pointer events makes a zoom marker or drops one. -/
theorem drags_keep_markers (config : Config Exact) (duration : Exact) (track : Track Exact)
    (actions : List (TimelineAction Exact)) (events : List (PointerEvent Exact))
    (hcheck : config.check = .ok ())
    (hfinite : ∀ x ∈ config.interaction.numbers, Scalar.isFinite x = true) :
    let t := (fresh config.interaction.timelineTuning duration track).run actions
    let done := t.run (events.map .handle)
    done.zoomIn.isSome = t.zoomIn.isSome ∧ done.zoomOut.isSome = t.zoomOut.isSome := by
  intro t done
  obtain ⟨gap, trimGap, hgaps⟩ := Config.hasGaps hcheck hfinite
  obtain ⟨d, hfresh⟩ := exists_ordered_fresh hgaps duration track
  obtain ⟨p, s, e, ht, -⟩ := ordered_run actions hfresh
  exact run_handle_isSome events ht

/-- A trim that is shorter than its least length is restored.  Its start is dragged to the
front, its end over an undefined position, and its start again as far as the end lets it. -/
theorem drags_keep_markers_restored :
    let config : Config Exact := {}
    let t := (fresh config.interaction.timelineTuning 10 ⟨0, 10000⟩).run
      [.restore ⟨0.1, 0.3⟩ ⟨some 0.15, some 0.25⟩]
    let done := t.run (List.map .handle
      [⟨.down, 100, 0⟩, ⟨.move, 5000, 0⟩, ⟨.up, 5000, 0⟩, ⟨.down, 300, 0⟩,
        ⟨.move, .undefined, 0⟩, ⟨.move, 800, 0⟩, ⟨.leave, 800, 0⟩, ⟨.down, 0, 0⟩,
        ⟨.move, 5000, 0⟩])
    config.check = .ok () ∧ t.trimStart = 0.1 ∧ t.trimEnd = 0.3
      ∧ done.trimStart = 0.3 ∧ done.trimEnd = 0.8
      ∧ done.zoomIn = some 0.3 ∧ done.zoomOut = some 0.4
      ∧ done.zoomIn.isSome = t.zoomIn.isSome ∧ done.zoomOut.isSome = t.zoomOut.isSome := by
  intro config t done
  have hcheck : config.check = .ok () := by decide +kernel
  have hfinite : ∀ x ∈ config.interaction.numbers, Scalar.isFinite x = true := by decide
  obtain ⟨hin, hout⟩ := drags_keep_markers config 10 ⟨0, 10000⟩ _ _ hcheck hfinite
  exact ⟨hcheck, by decide +kernel, by decide +kernel, by decide +kernel, by decide +kernel,
    by decide +kernel, by decide +kernel, hin, hout⟩

end Timeline
end GifEdit
