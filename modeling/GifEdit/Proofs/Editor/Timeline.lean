/-
  GifEdit.Proofs.Editor.Timeline
  ──────────────────────────────
  **THE MARKERS OF A TIMELINE STAY IN ORDER.**

  Every operation clamps, and the clamp lets its lower bound win where the bounds
  cross.  So each clamp is right only because of the order that the operations
  before it left behind, and one invariant has to carry all of them:

      0 ≤ playhead ≤ duration,   0 ≤ start ≤ stop ≤ duration,
      no marker | start ≤ zoom-in ≤ stop
                | start ≤ zoom-in,  zoom-in + gap ≤ zoom-out ≤ stop

  The proof has one lemma for each operation, and two lemmas carry the others:

    * `fits_reclampZoom`     — whatever the markers were, pulling them back into an
      ordered trim puts them in order (both trim handles and a restore end so),
    * `ordered_seek`         — a playhead put anywhere stays in the clip.

  Main result: `markers_stay_ordered`, for every run of operations from a fresh
  timeline.  Arguments may be undefined or infinite.
-/
import GifEdit.Proofs.Config.Gaps
import GifEdit.Proofs.Edit.Times

namespace GifEdit

open Exact

/-! ## §1. Runs of operations. -/

/-- An operation on a timeline. -/
inductive TimelineAction (α : Type) where
  | handle (e : PointerEvent α)
  | seek (time : α)
  | setZoomIn (time : α)
  | placeZoomOut (time : α)
  | clearZoom
  | setTrack (track : Track α)
  | release
  | restore (trim : TrimRange α) (zoom : ZoomWindow α)
  deriving Repr, DecidableEq

/-- Whether an operation takes over a saved edit. -/
def TimelineAction.isRestore {α : Type} : TimelineAction α → Bool
  | .restore _ _ => true
  | _ => false

namespace Timeline

variable {α : Type} [Scalar α]

/-- The timeline after an operation. -/
def act (t : Timeline α) : TimelineAction α → Timeline α
  | .handle e => (t.handle e).1
  | .seek time => (t.seek time).1
  | .setZoomIn time => (t.setZoomIn time).1
  | .placeZoomOut time => (t.placeZoomOut time).1
  | .clearZoom => t.clearZoom.1
  | .setTrack track => t.setTrack track
  | .release => t.release
  | .restore trim zoom => t.restore trim zoom

/-- The timeline after operations in a row. -/
def run (t : Timeline α) (actions : List (TimelineAction α)) : Timeline α := actions.foldl act t

/-- All times of a timeline. -/
def times (t : Timeline α) : List α :=
  [t.duration, t.playhead, t.trimStart, t.trimEnd] ++ t.zoomIn.toList ++ t.zoomOut.toList

end Timeline

/-! ## §2. The invariant. -/

namespace Timeline

/-- The tuning, the clip, the playhead and the trim are given by rationals in order. -/
structure Trimmed (gap trimGap d p s e : ℚ) (t : Timeline Exact) : Prop where
  gaps : t.tuning.HasGaps gap trimGap
  duration : t.duration = rational d
  playhead : t.playhead = rational p
  start : t.trimStart = rational s
  stop : t.trimEnd = rational e
  playhead_mem : 0 ≤ p ∧ p ≤ d
  trim_mem : 0 ≤ s ∧ s ≤ e ∧ e ≤ d

/-- The whole timeline is given by rationals in order, the markers too. -/
structure Ordered (gap trimGap d p s e : ℚ) (t : Timeline Exact) : Prop
    extends Trimmed gap trimGap d p s e t where
  zoom : t.zoomWindow.Fits gap s e

variable {gap trimGap d p s e : ℚ} {t : Timeline Exact}

/-! ## §3. The playhead and the markers. -/

/-- A clamped time lies between the bounds. -/
theorem clampBetween_eq (v : Exact) {lo hi : ℚ} (h : lo ≤ hi) :
    ∃ q, clampBetween v (rational lo) (rational hi) = rational q ∧ lo ≤ q ∧ q ≤ hi := by
  obtain ⟨q, hq, hlo, hhi⟩ := max_min_eq v lo hi
  rw [max_eq_right h] at hhi
  exact ⟨q, hq, hlo, hhi⟩

/-- A time between the bounds stays where it is. -/
theorem clampBetween_of_mem {q lo hi : ℚ} (hlo : lo ≤ q) (hhi : q ≤ hi) :
    clampBetween (rational q) (rational lo) (rational hi) = rational q := by
  unfold clampBetween
  rw [min_rational, max_rational, min_eq_left hhi, max_eq_left hlo]

/-- A time clamped to the clip. -/
theorem Trimmed.clampToClip (h : t.Trimmed gap trimGap d p s e) (v : Exact) :
    ∃ q, clampBetween v 0 t.duration = rational q ∧ 0 ≤ q ∧ q ≤ d := by
  have hd : (0 : ℚ) ≤ d := h.playhead_mem.1.trans h.playhead_mem.2
  obtain ⟨q, hq, hlo, hhi⟩ := clampBetween_eq v hd
  refine ⟨q, ?_, hlo, hhi⟩
  rw [h.duration, literal_eq, Nat.cast_zero]
  exact hq

/-- Markers are no part of the trim. -/
theorem Trimmed.setMarkers (h : t.Trimmed gap trimGap d p s e) (zoomIn zoomOut : Option Exact) :
    { t with zoomIn := zoomIn, zoomOut := zoomOut }.Trimmed gap trimGap d p s e :=
  ⟨h.gaps, h.duration, h.playhead, h.start, h.stop, h.playhead_mem, h.trim_mem⟩

/-- What is latched and where the track lies is no part of the order. -/
theorem Ordered.setSurface (h : t.Ordered gap trimGap d p s e) (track : Track Exact)
    (drag : DragTarget) :
    { t with track := track, drag := drag }.Ordered gap trimGap d p s e :=
  ⟨⟨h.gaps, h.duration, h.playhead, h.start, h.stop, h.playhead_mem, h.trim_mem⟩, h.zoom⟩

/-- Wherever the playhead is sent, it stays in the clip. -/
theorem ordered_seek (h : t.Ordered gap trimGap d p s e) (v : Exact) :
    ∃ p', (t.seek v).1.Ordered gap trimGap d p' s e := by
  obtain ⟨q, hq, hlo, hhi⟩ := h.clampToClip v
  exact ⟨q, ⟨h.gaps, h.duration, hq, h.start, h.stop, ⟨hlo, hhi⟩, h.trim_mem⟩, h.zoom⟩

/-- A zoom-in put anywhere lands in the trim, and a zoom-out survives only behind it. -/
theorem ordered_setZoomIn (h : t.Ordered gap trimGap d p s e) (v : Exact) :
    (t.setZoomIn v).1.Ordered gap trimGap d p s e := by
  refine ⟨h.toTrimmed.setMarkers _ _, ?_⟩
  obtain ⟨a, ha, hlo, hhi⟩ := clampBetween_eq v h.trim_mem.2.1
  show ZoomWindow.Fits gap s e
    ⟨some (clampBetween v t.trimStart t.trimEnd), t.zoomOut.filter fun out =>
      !(out < clampBetween v t.trimStart t.trimEnd + t.tuning.minZoomGap)⟩
  rw [h.start, h.stop, h.gaps.zoom_eq, ha, rational_add]
  have hzoom := h.zoom
  unfold zoomWindow at hzoom
  generalize t.zoomIn = zoomIn, t.zoomOut = zoomOut at hzoom
  cases hzoom with
  | unset => exact .zoomIn hlo hhi
  | zoomIn _ _ => exact .zoomIn hlo hhi
  | @both _ b _ _ hstop =>
      -- A zoom-out that is too close is dropped, any other keeps its place.
      by_cases hclose : b < a + gap
      · rw [Option.filter_some_neg (by simpa using hclose)]
        exact .zoomIn hlo hhi
      · rw [Option.filter_some_pos (by simpa using hclose)]
        exact .both hlo (not_lt.mp hclose) hstop

/-- A zoom-out is only put where there is room for it behind the zoom-in. -/
theorem ordered_placeZoomOut (h : t.Ordered gap trimGap d p s e) (v : Exact) :
    (t.placeZoomOut v).1.Ordered gap trimGap d p s e := by
  unfold placeZoomOut
  cases hin : t.zoomIn with
  | none => exact h
  | some x =>
      have hzoom := h.zoom
      unfold zoomWindow at hzoom
      rw [hin] at hzoom
      obtain ⟨a, rfl, hstart⟩ : ∃ a, x = rational a ∧ s ≤ a := by
        generalize t.zoomOut = zoomOut at hzoom
        cases hzoom with
        | zoomIn hstart _ => exact ⟨_, rfl, hstart⟩
        | both hstart _ _ => exact ⟨_, rfl, hstart⟩
      have hlower : rational a + t.tuning.minZoomGap = rational (a + gap) := by
        rw [h.gaps.zoom_eq, rational_add]
      -- Without room for the gap the timeline stays; with room the marker is clamped into it.
      by_cases hfull : e < a + gap
      · have hroom : t.trimEnd < rational a + t.tuning.minZoomGap := by
          rw [hlower, h.stop, rational_lt]
          exact hfull
        simp only [hroom, if_true]
        exact h
      · have hroom : ¬ t.trimEnd < rational a + t.tuning.minZoomGap := by
          rw [hlower, h.stop, rational_lt]
          exact hfull
        simp only [hroom, if_false]
        obtain ⟨b, hb, hlo, hhi⟩ := clampBetween_eq v (not_lt.mp hfull)
        refine ⟨h.toTrimmed.setMarkers _ _, ?_⟩
        show ZoomWindow.Fits gap s e
          ⟨some (rational a), some (clampBetween v (rational a + t.tuning.minZoomGap) t.trimEnd)⟩
        rw [hlower, h.stop, hb]
        exact .both hstart hlo hhi

theorem ordered_clearZoom (h : t.Ordered gap trimGap d p s e) :
    t.clearZoom.1.Ordered gap trimGap d p s e :=
  ⟨h.toTrimmed.setMarkers _ _, .unset⟩

/-! ## §4. Trims. -/

/-- **Pulling the markers back into an ordered trim puts them in order**, wherever they
were before: a zoom-out without room is dropped, a zoom-in is clamped first against
the zoom-out that stays. -/
theorem fits_reclampZoom (hzoomGap : t.tuning.minZoomGap = rational gap)
    (hstart : t.trimStart = rational s) (hstop : t.trimEnd = rational e) (hse : s ≤ e) :
    t.reclampZoom.1.zoomWindow.Fits gap s e := by
  unfold reclampZoom zoomWindow
  simp only [hstart, hstop, hzoomGap]
  cases t.zoomIn with
  | none => exact .unset
  | some v =>
      obtain ⟨a, ha, hlo, hhi⟩ := clampBetween_eq v hse
      cases t.zoomOut with
      | none =>
          simp only [ha]
          exact .zoomIn hlo hhi
      | some w =>
          -- With room for the gap the zoom-out goes first and bounds the zoom-in.
          by_cases hroom : gap ≤ e - s
          · obtain ⟨b, hb, hlob, hhib⟩ := clampBetween_eq w (show s + gap ≤ e by linarith)
            obtain ⟨a', ha', hlo', hhi'⟩ := clampBetween_eq v (show s ≤ b - gap by linarith)
            simp only [rational_sub, rational_add, rational_le, hroom, if_true, hb, ha']
            exact .both hlo' (by linarith) hhib
          · simp only [rational_sub, rational_le, hroom, if_false, ha]
            exact .zoomIn hlo hhi

/-- Markers in order are not moved. -/
theorem reclampZoom_of_fits (hzoomGap : t.tuning.minZoomGap = rational gap)
    (hstart : t.trimStart = rational s) (hstop : t.trimEnd = rational e)
    (h : t.zoomWindow.Fits gap s e) : t.reclampZoom.1.zoomWindow = t.zoomWindow := by
  unfold zoomWindow at h
  unfold reclampZoom zoomWindow
  simp only [hstart, hstop, hzoomGap]
  generalize t.zoomIn = zoomIn, t.zoomOut = zoomOut at h
  cases h with
  | unset => rfl
  | zoomIn hlo hhi => simp only [clampBetween_of_mem hlo hhi]
  | @both a b hlo hroom hhi =>
      have hlong : gap ≤ e - s := by linarith
      simp only [rational_sub, rational_add, rational_le, hlong, if_true]
      rw [clampBetween_of_mem (show s + gap ≤ b by linarith) hhi, rational_sub,
        clampBetween_of_mem hlo (show a ≤ b - gap by linarith)]

theorem ordered_reclampZoom (h : t.Trimmed gap trimGap d p s e) :
    t.reclampZoom.1.Ordered gap trimGap d p s e :=
  ⟨h.setMarkers _ _,
    fits_reclampZoom h.gaps.zoom_eq h.start h.stop h.trim_mem.2.1⟩

/-- The start of the trim may move anywhere before its end. -/
theorem ordered_setTrimStart (h : t.Trimmed gap trimGap d p s e) {q : ℚ} (hq : 0 ≤ q)
    (hqe : q ≤ e) :
    ∃ p', (t.setTrimStart (rational q)).1.Ordered gap trimGap d p' q e := by
  have hmoved : { t with trimStart := rational q }.Trimmed gap trimGap d p q e :=
    ⟨h.gaps, h.duration, h.playhead, rfl, h.stop, h.playhead_mem, hq, hqe, h.trim_mem.2.2⟩
  exact ordered_seek (ordered_reclampZoom hmoved) (rational q)

/-- The end of the trim may move anywhere behind its start. -/
theorem ordered_setTrimEnd (h : t.Trimmed gap trimGap d p s e) {q : ℚ} (hsq : s ≤ q)
    (hq : q ≤ d) :
    ∃ p', (t.setTrimEnd (rational q)).1.Ordered gap trimGap d p' s q := by
  have hmoved : { t with trimEnd := rational q }.Trimmed gap trimGap d p s q :=
    ⟨h.gaps, h.duration, h.playhead, h.start, rfl, h.playhead_mem, h.trim_mem.1, hsq, hq⟩
  exact ordered_seek (ordered_reclampZoom hmoved) (rational q)

/-- Any saved edit is taken over in order. -/
theorem ordered_restore (h : t.Ordered gap trimGap d p s e) (trim : TrimRange Exact)
    (zoom : ZoomWindow Exact) :
    ∃ s' e', (t.restore trim zoom).Ordered gap trimGap d p s' e' := by
  obtain ⟨q, hstart, hq0, hqd⟩ := h.clampToClip trim.start
  obtain ⟨r, hr, hqr, hrd⟩ := clampBetween_eq trim.stop hqd
  refine ⟨q, r, Ordered.setSurface (ordered_reclampZoom ?_) _ _⟩
  -- The end is clamped against the start that was clamped before it.
  have hstop : clampBetween trim.stop (clampBetween trim.start 0 t.duration) t.duration
      = rational r := by
    rw [hstart, h.duration, hr]
  exact ⟨h.gaps, h.duration, h.playhead, hstart, hstop, h.playhead_mem, hq0, hqr, hrd⟩

/-! ## §5. Drags. -/

/-- A zoom-in that is dragged keeps its gap to the zoom-out, or stays in the trim. -/
theorem ordered_dragZoomIn (h : t.Ordered gap trimGap d p s e) (v : Exact)
    (hin : t.zoomIn.isSome = true) :
    { t with zoomIn := some (clampBetween v t.trimStart
        (t.zoomOut.elim t.trimEnd (· - t.tuning.minZoomGap))) }.Ordered gap trimGap d p s e := by
  refine ⟨h.toTrimmed.setMarkers _ _, ?_⟩
  show ZoomWindow.Fits gap s e ⟨some (clampBetween v t.trimStart _), t.zoomOut⟩
  rw [h.start, h.stop, h.gaps.zoom_eq]
  have hgap := h.gaps.zoomGap_pos
  have hzoom := h.zoom
  unfold zoomWindow at hzoom
  generalize t.zoomIn = zoomIn, t.zoomOut = zoomOut at hzoom hin
  -- With a zoom-out the upper bound is the gap before it, and otherwise the end of the trim.
  cases hzoom with
  | unset => exact nomatch hin
  | zoomIn _ _ =>
      obtain ⟨a, ha, hlo, hhi⟩ := clampBetween_eq v h.trim_mem.2.1
      simp only [Option.elim_none, ha]
      exact .zoomIn hlo hhi
  | @both a b hstart hroom hstop =>
      obtain ⟨a', ha', hlo, hhi⟩ := clampBetween_eq v (show s ≤ b - gap by linarith)
      simp only [Option.elim_some, rational_sub, ha']
      exact .both hlo (by linarith) hstop

/-- A zoom-out that is dragged keeps its gap to the zoom-in and stays in the trim. -/
theorem ordered_dragZoomOut (h : t.Ordered gap trimGap d p s e) (v : Exact) {x y : Exact}
    (hin : t.zoomIn = some x) (hout : t.zoomOut = some y) :
    { t with zoomOut := some (clampBetween v (x + t.tuning.minZoomGap) t.trimEnd) }.Ordered
      gap trimGap d p s e := by
  refine ⟨h.toTrimmed.setMarkers _ _, ?_⟩
  show ZoomWindow.Fits gap s e ⟨t.zoomIn, some (clampBetween v (x + t.tuning.minZoomGap) t.trimEnd)⟩
  have hzoom := h.zoom
  unfold zoomWindow at hzoom
  rw [hin, hout] at hzoom
  cases hzoom with
  | @both a b hstart hroom hstop =>
      rw [hin, h.stop, h.gaps.zoom_eq, rational_add]
      obtain ⟨b', hb', hlo, hhi⟩ := clampBetween_eq v (hroom.trans hstop)
      rw [hb']
      exact .both hstart hlo hhi

/-- **One motion of the pointer.**  The trim keeps its least length, or as much of it as
it had before. -/
theorem ordered_move (h : t.Ordered gap trimGap d p s e) (x : Exact) :
    ∃ p' s' e', (t.move x).1.Ordered gap trimGap d p' s' e' ∧ min trimGap (e - s) ≤ e' - s' := by
  have htrimGap := h.gaps.trimGap_pos
  obtain ⟨hs, hse, hed⟩ := h.trim_mem
  unfold move
  cases hdrag : t.drag with
  | none => exact ⟨p, s, e, h, min_le_right _ _⟩
  | scrubber =>
      obtain ⟨p', hp'⟩ := ordered_seek h (t.timeAt x)
      exact ⟨p', s, e, hp', min_le_right _ _⟩
  | trimStart =>
      -- In a trim that is too short the cap is negative, and zero wins.
      obtain ⟨q, hq, hlo, hhi⟩ := max_min_eq (t.timeAt x) 0 (e - trimGap)
      have hqe : q ≤ e := hhi.trans (max_le (hs.trans hse) (by linarith))
      obtain ⟨p', hp'⟩ := ordered_setTrimStart h.toTrimmed hlo hqe
      simp only [h.stop, h.gaps.trim_eq, rational_sub, literal_eq, Nat.cast_zero, hq]
      refine ⟨p', q, e, hp', ?_⟩
      rcases le_max_iff.mp hhi with hzero | hcap
      · exact (min_le_right _ _).trans (by linarith)
      · exact (min_le_left _ _).trans (by linarith)
  | trimEnd =>
      -- Here the end of the clip wins, which is still behind the start.
      obtain ⟨q, hq, hlo, hhi⟩ := min_max_eq (t.timeAt x) (s + trimGap) d
      have hsq : s ≤ q := (le_min (by linarith) (hse.trans hed)).trans hlo
      obtain ⟨p', hp'⟩ := ordered_setTrimEnd h.toTrimmed hsq hhi
      simp only [h.start, h.duration, h.gaps.trim_eq, rational_add, hq]
      refine ⟨p', s, q, hp', ?_⟩
      rcases min_le_iff.mp hlo with hcap | hend
      · exact (min_le_left _ _).trans (by linarith)
      · exact (min_le_right _ _).trans (by linarith)
  | zoomIn =>
      -- The marker may have been cleared after it was latched.
      cases hin : t.zoomIn with
      | none => exact ⟨p, s, e, h, min_le_right _ _⟩
      | some a =>
          have hdragged := ordered_dragZoomIn h (t.timeAt x) (Option.isSome_of_eq_some hin)
          rw [hdrag] at hdragged
          obtain ⟨p', hp'⟩ := ordered_seek hdragged (clampBetween (t.timeAt x) t.trimStart
            (t.zoomOut.elim t.trimEnd (· - t.tuning.minZoomGap)))
          cases hout : t.zoomOut with
          | none =>
              rw [hout] at hp'
              exact ⟨p', s, e, hp', min_le_right _ _⟩
          | some b =>
              rw [hout] at hp'
              exact ⟨p', s, e, hp', min_le_right _ _⟩
  | zoomOut =>
      cases hin : t.zoomIn with
      | none => exact ⟨p, s, e, h, min_le_right _ _⟩
      | some a =>
          cases hout : t.zoomOut with
          | none => exact ⟨p, s, e, h, min_le_right _ _⟩
          | some b =>
              have hdragged := ordered_dragZoomOut h (t.timeAt x) hin hout
              rw [hdrag, hin] at hdragged
              obtain ⟨p', hp'⟩ := ordered_seek hdragged _
              exact ⟨p', s, e, hp', min_le_right _ _⟩

/-! ## §6. One operation, and a run of them. -/

/-- A press latches a target and at most moves the playhead. -/
theorem ordered_down (h : t.Ordered gap trimGap d p s e) (x : Exact) :
    ∃ p', (t.down x).1.Ordered gap trimGap d p' s e := by
  have hlatched := h.setSurface t.track (t.hit x)
  unfold down
  dsimp only
  split
  · exact ordered_seek hlatched _
  · exact ⟨p, hlatched⟩

/-- A pointer event in any phase. -/
theorem ordered_handle (h : t.Ordered gap trimGap d p s e) (event : PointerEvent Exact) :
    ∃ p' s' e', (t.handle event).1.Ordered gap trimGap d p' s' e'
      ∧ min trimGap (e - s) ≤ e' - s' := by
  unfold handle
  cases event.phase with
  | down =>
      obtain ⟨p', hp'⟩ := ordered_down h event.x
      exact ⟨p', s, e, hp', min_le_right _ _⟩
  | move => exact ordered_move h event.x
  | up => exact ⟨p, s, e, h.setSurface t.track .none, min_le_right _ _⟩
  | leave => exact ⟨p, s, e, h.setSurface t.track .none, min_le_right _ _⟩

/-- **One operation keeps the order**, and all but a restore keep the length of the trim
up to its least length. -/
theorem ordered_act (h : t.Ordered gap trimGap d p s e) (a : TimelineAction Exact) :
    ∃ p' s' e', (t.act a).Ordered gap trimGap d p' s' e'
      ∧ (a.isRestore = false → min trimGap (e - s) ≤ e' - s') := by
  cases a with
  | handle event =>
      obtain ⟨p', s', e', h', hlen⟩ := ordered_handle h event
      exact ⟨p', s', e', h', fun _ => hlen⟩
  | seek v =>
      obtain ⟨p', h'⟩ := ordered_seek h v
      exact ⟨p', s, e, h', fun _ => min_le_right _ _⟩
  | setZoomIn v => exact ⟨p, s, e, ordered_setZoomIn h v, fun _ => min_le_right _ _⟩
  | placeZoomOut v => exact ⟨p, s, e, ordered_placeZoomOut h v, fun _ => min_le_right _ _⟩
  | clearZoom => exact ⟨p, s, e, ordered_clearZoom h, fun _ => min_le_right _ _⟩
  | setTrack track => exact ⟨p, s, e, h.setSurface track t.drag, fun _ => min_le_right _ _⟩
  | release => exact ⟨p, s, e, h.setSurface t.track .none, fun _ => min_le_right _ _⟩
  | restore trim zoom =>
      obtain ⟨s', e', h'⟩ := ordered_restore h trim zoom
      exact ⟨p, s', e', h', fun hfalse => nomatch hfalse⟩

/-- **A run of operations keeps the order.** -/
theorem ordered_run (actions : List (TimelineAction Exact)) :
    ∀ {t : Timeline Exact} {p s e : ℚ}, t.Ordered gap trimGap d p s e →
      ∃ p' s' e', (t.run actions).Ordered gap trimGap d p' s' e'
        ∧ ((∀ a ∈ actions, a.isRestore = false) → min trimGap (e - s) ≤ e' - s') := by
  induction actions with
  | nil =>
      intro t p s e h
      exact ⟨p, s, e, h, fun _ => min_le_right _ _⟩
  | cons a actions ih =>
      -- The bound on the length only shrinks: each step keeps the least of what was there.
      intro t p s e h
      obtain ⟨p₁, s₁, e₁, h₁, hlen₁⟩ := ordered_act h a
      obtain ⟨p₂, s₂, e₂, h₂, hlen₂⟩ := ih h₁
      refine ⟨p₂, s₂, e₂, h₂, fun hkept => ?_⟩
      have hfirst := hlen₁ (hkept a List.mem_cons_self)
      have hrest := hlen₂ fun b hb => hkept b (List.mem_cons_of_mem a hb)
      exact (le_min (min_le_left _ _) hfirst).trans hrest

/-- A fresh timeline keeps the whole clip. -/
theorem ordered_fresh {u : TimelineTuning Exact} (hu : u.HasGaps gap trimGap) (hd : 0 ≤ d)
    (track : Track Exact) : (fresh u (rational d) track).Ordered gap trimGap d 0 0 d := by
  have hzero : (0 : Exact) = rational 0 := by
    rw [literal_eq, Nat.cast_zero]
  unfold fresh
  simp only [isFinite_rational, if_true, hzero, max_rational, max_eq_left hd]
  exact ⟨⟨hu, rfl, rfl, rfl, rfl, ⟨le_rfl, hd⟩, le_rfl, hd, le_rfl⟩, .unset⟩

/-! ## §7. The order as the editor sees it. -/

/-- All times are finite and in order, with a least gap between the zoom markers. -/
structure MarkersInOrder (gap : Exact) (t : Timeline Exact) : Prop where
  finite : ∀ x ∈ t.times, Scalar.isFinite x = true
  playhead : 0 ≤ t.playhead ∧ t.playhead ≤ t.duration
  trim : 0 ≤ t.trimStart ∧ t.trimStart ≤ t.trimEnd ∧ t.trimEnd ≤ t.duration
  zoomIn : ∀ a ∈ t.zoomIn, t.trimStart ≤ a ∧ a ≤ t.trimEnd
  zoomOut : ∀ b ∈ t.zoomOut, ∃ a ∈ t.zoomIn, a + gap ≤ b ∧ b ≤ t.trimEnd

theorem Ordered.markersInOrder (h : t.Ordered gap trimGap d p s e) :
    t.MarkersInOrder (rational gap) := by
  have hgap := h.gaps.zoomGap_pos
  obtain ⟨⟨-, hd, hp, hs, he, ⟨hp0, hpd⟩, hs0, hse, hed⟩, hzoom⟩ := h
  unfold zoomWindow at hzoom
  -- Which markers are there decides all that is left to show.
  generalize hin : t.zoomIn = zoomIn, hout : t.zoomOut = zoomOut at hzoom
  constructor
  · unfold times
    rw [hd, hp, hs, he, hin, hout]
    cases hzoom <;> simp
  · simp [hp, hd, hp0, hpd]
  · simp [hs, he, hd, hs0, hse, hed]
  · intro a ha
    rw [hin] at ha
    rw [hs, he]
    cases hzoom with
    | unset => exact nomatch ha
    | zoomIn hlo hhi =>
        obtain rfl := Option.mem_some.mp ha
        exact ⟨rational_le.mpr hlo, rational_le.mpr hhi⟩
    | both hlo hroom hhi =>
        obtain rfl := Option.mem_some.mp ha
        exact ⟨rational_le.mpr hlo, rational_le.mpr (by linarith)⟩
  · intro b hb
    rw [hout] at hb
    rw [hin, he]
    cases hzoom with
    | unset => exact nomatch hb
    | zoomIn hlo hhi => exact nomatch hb
    | both hlo hroom hhi =>
        obtain rfl := Option.mem_some.mp hb
        exact ⟨_, rfl, rational_le.mpr hroom, rational_le.mpr hhi⟩

/-- **MARKERS STAY IN ORDER**: after any operations on the timeline of a clip, tuned by an
accepted configuration, all times are finite and in order; and without a restore the trim
keeps its least length, if the clip is that long. -/
theorem markers_stay_ordered (config : Config Exact) (duration : Exact) (track : Track Exact)
    (actions : List (TimelineAction Exact)) (hcheck : config.check = .ok ())
    (hfinite : ∀ x ∈ config.interaction.numbers, Scalar.isFinite x = true)
    (hduration : Scalar.isFinite duration = true) (hpositive : 0 < duration) :
    let tuning := config.interaction.timelineTuning
    let t := (fresh tuning duration track).run actions
    t.duration = duration ∧ t.MarkersInOrder tuning.minZoomGap
      ∧ ((∀ a ∈ actions, a.isRestore = false) → tuning.minTrimGap ≤ duration →
          tuning.minTrimGap ≤ t.trimEnd - t.trimStart) := by
  intro tuning t
  obtain ⟨gap, trimGap, hgaps⟩ := Config.hasGaps hcheck hfinite
  obtain ⟨d, rfl⟩ := isFinite_iff.mp hduration
  have hd : 0 < d := by
    rw [literal_eq, rational_lt, Nat.cast_zero] at hpositive
    exact hpositive
  obtain ⟨p, s, e, h, hlen⟩ := ordered_run actions (ordered_fresh hgaps hd.le track)
  refine ⟨h.duration, ?_, ?_⟩
  · rw [show tuning.minZoomGap = rational gap from hgaps.zoom_eq]
    exact h.markersInOrder
  · intro hkept hlong
    rw [show tuning.minTrimGap = rational trimGap from hgaps.trim_eq, rational_le] at hlong
    rw [show tuning.minTrimGap = rational trimGap from hgaps.trim_eq,
      show t.trimEnd = rational e from h.stop, show t.trimStart = rational s from h.start,
      rational_sub, rational_le]
    -- A fresh trim is the whole clip, and drags keep its least length.
    have hkeep := hlen hkept
    rw [sub_zero, min_eq_left hlong] at hkeep
    exact hkeep

/-- The trim end is dragged across both markers, through an undefined position, and back:
the markers are pushed to the front and stay there. -/
theorem markers_stay_ordered_dragged :
    let config : Config Exact := {}
    let tuning := config.interaction.timelineTuning
    let t := (fresh tuning 10 ⟨100, 1000⟩).run
      [.setZoomIn 3, .placeZoomOut 6, .handle ⟨.down, 1100, 0⟩, .handle ⟨.move, .undefined, 0⟩,
        .handle ⟨.move, 300, 0⟩]
    config.check = .ok () ∧ t.trimEnd = 2 ∧ t.zoomIn = some 0.4 ∧ t.zoomOut = some 0.5
      ∧ t.MarkersInOrder tuning.minZoomGap ∧ tuning.minTrimGap ≤ t.trimEnd - t.trimStart := by
  intro config tuning t
  have hcheck : config.check = .ok () := by decide +kernel
  have hfinite : ∀ x ∈ config.interaction.numbers, Scalar.isFinite x = true := by decide
  obtain ⟨-, horder, hlen⟩ :=
    markers_stay_ordered config 10 ⟨100, 1000⟩ _ hcheck hfinite rfl rfl
  exact ⟨hcheck, by decide +kernel, by decide +kernel, by decide +kernel, horder,
    hlen (by decide) (by decide +kernel)⟩

end Timeline
end GifEdit
