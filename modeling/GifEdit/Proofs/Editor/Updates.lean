/-
  GifEdit.Proofs.Editor.Updates
  ─────────────────────────────
  **AN UPDATE TELLS WHAT AN OPERATION CHANGED.**

  A preview sees a timeline only through its updates, so an update has to tell of every
  change, and should tell of no other:

      seek   the new playhead, wherever it may have moved
      trim   exactly if an end of the trim moved
      zoom   if a marker moved, came or went; only then after a pointer event or a removal,
             but always where a marker is placed

  Times are compared to find out, so they have to be equal to themselves.  No arithmetic
  keeps the undefined value out; the selections do.  Every time that is stored went through
  one of them, against a time that was stored before, so whatever the tuning and the
  arguments are, no state holds an undefined time.

  The lemmas:

    * `defined_act`           — one operation stores nothing undefined,
    * `tracksExactly_sought`  — a change of the trim and the markers, and a seek after it,
    * `tracksExactly_move`    — a motion of the pointer, one case for each target.

  Main result: `updates_track_changes`, for every operation in every state that operations
  lead to.
-/
import GifEdit.Proofs.Scalar.Order
import GifEdit.Proofs.Editor.Timeline

namespace GifEdit

variable {α : Type} [Scalar α]

/-! ## §1. What an update tells. -/

/-- Whether an operation puts a marker somewhere, and says so wherever it was. -/
def TimelineAction.placesMarker {α : Type} : TimelineAction α → Bool
  | .setZoomIn _ | .placeZoomOut _ => true
  | .handle _ | .seek _ | .clearZoom | .setTrack _ | .release | .restore _ _ => false

namespace Timeline

/-- What an operation reports, if it reports anything. -/
def report? (t : Timeline α) : TimelineAction α → Option (TimelineUpdate α)
  | .handle e => some (t.handle e).2
  | .seek time => some (t.seek time).2
  | .setZoomIn time => some (t.setZoomIn time).2
  | .placeZoomOut time => some (t.placeZoomOut time).2
  | .clearZoom => some t.clearZoom.2
  | .setTrack _ | .release | .restore _ _ => none

/-- Whether an end of the trim is another one. -/
def trimMoved (t t' : Timeline α) : Bool :=
  !(t'.trimStart == t.trimStart) || !(t'.trimEnd == t.trimEnd)

/-- Whether a zoom marker moved, came or went. -/
def zoomMoved (t t' : Timeline α) : Bool :=
  differ t.zoomIn t'.zoomIn || differ t.zoomOut t'.zoomOut

/-- An update on the way from `t` to `t'` tells where the playhead went and whether the trim
moved, and it leaves out no change of the markers. -/
structure Tracks (t t' : Timeline α) (u : TimelineUpdate α) : Prop where
  sought : ∀ x ∈ u.seek, x = t'.playhead ∧ 0 ≤ x ∧ x ≤ t'.duration
  unsought : u.seek = none → t'.playhead = t.playhead
  trim : u.trimChanged = t.trimMoved t'
  zoom : t.zoomMoved t' = true → u.zoomChanged = true

/-- An update that tells of the markers just what changed, and of no change that there was not. -/
structure TracksExactly (t t' : Timeline α) (u : TimelineUpdate α) : Prop
    extends Tracks t t' u where
  told : u.zoomChanged = true → t.zoomMoved t' = true

end Timeline

/-! ## §2. Stored times are defined. -/

/-- A clamped time is defined where one of its bounds is. -/
theorem isUndefined_clampBetween (v : α) {lo hi : α}
    (h : Scalar.isUndefined lo = false ∨ Scalar.isUndefined hi = false) :
    Scalar.isUndefined (clampBetween v lo hi) = false := by
  unfold clampBetween
  rcases h with hlo | hhi
  · exact Scalar.isUndefined_max (.inr hlo)
  · exact Scalar.isUndefined_max (.inl (Scalar.isUndefined_min (.inr hhi)))

/-- An optional time is defined if it is there. -/
def Definite (time : Option α) : Prop := ∀ a ∈ time, Scalar.isUndefined a = false

theorem definite_none : Definite (none : Option α) := fun _ ha => nomatch ha

/-- A marker that was clamped is defined. -/
theorem definite_clampBetween (v : α) {lo hi : α}
    (h : Scalar.isUndefined lo = false ∨ Scalar.isUndefined hi = false) :
    Definite (some (clampBetween v lo hi)) := by
  intro a ha
  obtain rfl := Option.mem_some.mp ha
  exact isUndefined_clampBetween v h

theorem Definite.filter {time : Option α} (h : Definite time) (p : α → Bool) :
    Definite (time.filter p) := fun a ha => h a (Option.eq_some_of_filter_eq_some ha)

/-- A defined time, if any, does not differ from itself. -/
theorem differ_self {time : Option α} (h : Definite time) : differ time time = false := by
  cases time with
  | none => rfl
  | some a =>
      show (!(a == a)) = false
      rw [Scalar.beq_self (h a rfl)]
      rfl

namespace Timeline

/-- The clip, the playhead and the trim are defined. -/
structure TrimDefined (t : Timeline α) : Prop where
  duration : (0 : α) ≤ t.duration
  playhead : Scalar.isUndefined t.playhead = false
  trimStart : Scalar.isUndefined t.trimStart = false
  trimEnd : Scalar.isUndefined t.trimEnd = false

/-- All times of the timeline are defined, the markers too. -/
structure Defined (t : Timeline α) : Prop extends TrimDefined t where
  zoomIn : Definite t.zoomIn
  zoomOut : Definite t.zoomOut

variable {t : Timeline α}

/-- Markers may be put at any defined times. -/
theorem TrimDefined.setMarkers (h : t.TrimDefined) {zoomIn zoomOut : Option α}
    (hin : Definite zoomIn) (hout : Definite zoomOut) :
    { t with zoomIn := zoomIn, zoomOut := zoomOut }.Defined :=
  ⟨⟨h.duration, h.playhead, h.trimStart, h.trimEnd⟩, hin, hout⟩

/-- Neither the track nor what is latched is a time. -/
theorem Defined.setSurface (h : t.Defined) (track : Track α) (drag : DragTarget) :
    { t with track := track, drag := drag }.Defined :=
  ⟨⟨h.duration, h.playhead, h.trimStart, h.trimEnd⟩, h.zoomIn, h.zoomOut⟩

/-- A zoom-in is clamped to the trim, and the zoom-out is kept or dropped. -/
theorem defined_setZoomIn (h : t.Defined) (time : α) : (t.setZoomIn time).1.Defined :=
  h.setMarkers (definite_clampBetween time (.inl h.trimStart)) (h.zoomOut.filter _)

/-- A zoom-out is clamped to the trim, or not placed at all. -/
theorem defined_placeZoomOut (h : t.Defined) (time : α) : (t.placeZoomOut time).1.Defined := by
  have hin := h.zoomIn
  unfold placeZoomOut
  cases hzoomIn : t.zoomIn with
  | none => exact h
  | some start =>
      rw [hzoomIn] at hin
      dsimp only
      split
      · exact h
      · exact h.setMarkers hin (definite_clampBetween time (.inr h.trimEnd))

/-- **Markers pulled into a defined trim are defined**, whatever they were before. -/
theorem defined_reclampZoom (h : t.TrimDefined) : t.reclampZoom.1.Defined := by
  have hin (v hi : α) : Definite (some (clampBetween v t.trimStart hi)) :=
    definite_clampBetween v (.inl h.trimStart)
  have hout (v lo : α) : Definite (some (clampBetween v lo t.trimEnd)) :=
    definite_clampBetween v (.inr h.trimEnd)
  unfold reclampZoom
  cases t.zoomIn with
  | none => exact h.setMarkers definite_none definite_none
  | some start =>
      cases t.zoomOut with
      | none => exact h.setMarkers (hin _ _) definite_none
      | some out =>
          dsimp only
          split
          · exact h.setMarkers (hin _ _) (hout _ _)
          · exact h.setMarkers (hin _ _) definite_none

section Ordered

variable [OrderedScalar α]

theorem TrimDefined.isUndefined_duration (h : t.TrimDefined) :
    Scalar.isUndefined t.duration = false :=
  (OrderedScalar.isUndefined_of_le h.duration).2

theorem defined_seek (h : t.Defined) (time : α) : (t.seek time).1.Defined :=
  ⟨⟨h.duration, isUndefined_clampBetween time (.inr h.isUndefined_duration), h.trimStart,
    h.trimEnd⟩, h.zoomIn, h.zoomOut⟩

/-- A defined start of the trim pulls the markers to defined times. -/
theorem defined_setTrimStart (h : t.Defined) {start : α}
    (hstart : Scalar.isUndefined start = false) : (t.setTrimStart start).1.Defined := by
  have hset : { t with trimStart := start }.TrimDefined :=
    ⟨h.duration, h.playhead, hstart, h.trimEnd⟩
  exact defined_seek (defined_reclampZoom hset) start

theorem defined_setTrimEnd (h : t.Defined) {stop : α}
    (hstop : Scalar.isUndefined stop = false) : (t.setTrimEnd stop).1.Defined := by
  have hset : { t with trimEnd := stop }.TrimDefined :=
    ⟨h.duration, h.playhead, h.trimStart, hstop⟩
  exact defined_seek (defined_reclampZoom hset) stop

/-- The end of the clip takes the place of what is undefined in a saved trim. -/
theorem defined_restore (h : t.Defined) (trim : TrimRange α) (zoom : ZoomWindow α) :
    (t.restore trim zoom).Defined := by
  have hbound (v lo : α) : Scalar.isUndefined (clampBetween v lo t.duration) = false :=
    isUndefined_clampBetween v (.inr h.isUndefined_duration)
  have hset : { t with
      trimStart := clampBetween trim.start 0 t.duration
      trimEnd := clampBetween trim.stop (clampBetween trim.start 0 t.duration) t.duration
      zoomIn := zoom.start
      zoomOut := if zoom.start.isSome then zoom.stop else .none }.TrimDefined :=
    ⟨h.duration, h.playhead, hbound _ _, hbound _ _⟩
  exact (defined_reclampZoom hset).setSurface t.track .none

/-- **What is dragged lands at a defined time**: its bounds are tuned by any numbers, but on
one side there is always a time that was stored before. -/
theorem defined_move (h : t.Defined) (x : α) : (t.move x).1.Defined := by
  -- What a clamp needs is one defined bound, and the other may be anything.
  have hlatched (drag : DragTarget) := h.setSurface t.track drag
  unfold move
  cases t.drag with
  | none => exact h
  | scrubber => exact defined_seek h _
  | trimStart =>
      exact defined_setTrimStart h (Scalar.isUndefined_max (.inr OrderedScalar.isUndefined_zero))
  | trimEnd =>
      exact defined_setTrimEnd h (Scalar.isUndefined_min (.inr h.isUndefined_duration))
  | zoomIn =>
      dsimp only
      split
      · exact h
      · exact defined_seek ((hlatched .zoomIn).setMarkers
          (definite_clampBetween _ (.inl h.trimStart)) h.zoomOut) _
  | zoomOut =>
      have hin := h.zoomIn
      cases hzoomIn : t.zoomIn with
      | none => exact h
      | some start =>
          rw [hzoomIn] at hin
          cases t.zoomOut with
          | none => exact h
          | some out =>
              exact defined_seek ((hlatched .zoomOut).setMarkers hin
                (definite_clampBetween _ (.inr h.trimEnd))) _

/-- No event makes a stored time undefined, wherever the pointer is. -/
theorem defined_handle (h : t.Defined) (e : PointerEvent α) : (t.handle e).1.Defined := by
  unfold handle
  cases e.phase with
  | move => exact defined_move h e.x
  | up | leave => exact h.setSurface t.track .none
  | down =>
      have hlatched := h.setSurface t.track (t.hit e.x)
      unfold down
      dsimp only
      split
      · exact defined_seek hlatched _
      · exact hlatched

/-- **One operation** stores nothing undefined. -/
theorem defined_act (h : t.Defined) (a : TimelineAction α) : (t.act a).Defined := by
  cases a with
  | handle e => exact defined_handle h e
  | seek time => exact defined_seek h time
  | setZoomIn time => exact defined_setZoomIn h time
  | placeZoomOut time => exact defined_placeZoomOut h time
  | clearZoom => exact h.setMarkers definite_none definite_none
  | setTrack track => exact h.setSurface track t.drag
  | release => exact h.setSurface t.track .none
  | restore trim zoom => exact defined_restore h trim zoom

/-- **A run of operations** neither. -/
theorem defined_run (actions : List (TimelineAction α)) :
    ∀ {t : Timeline α}, t.Defined → (t.run actions).Defined := by
  induction actions with
  | nil =>
      intro t h
      exact h
  | cons a actions ih =>
      intro t h
      exact ih (defined_act h a)

/-- What is no duration counts as none, so a clip of any given duration starts defined. -/
theorem defined_fresh (tuning : TimelineTuning α) (duration : α) (track : Track α) :
    (fresh tuning duration track).Defined := by
  have hzero : Scalar.isUndefined (0 : α) = false := OrderedScalar.isUndefined_zero
  have hduration : (0 : α) ≤ (fresh tuning duration track).duration := by
    unfold fresh
    dsimp only
    split
    · exact Scalar.le_max_right _ hzero
    · exact Scalar.le_self hzero
  exact ⟨⟨hduration, hzero, hzero, (OrderedScalar.isUndefined_of_le hduration).2⟩,
    definite_none, definite_none⟩

end Ordered

/-! ## §3. Updates of defined times. -/

variable {s : Timeline α}

/-- A defined trim that is left alone has not moved. -/
theorem trimMoved_of_eq (h : t.Defined) (hstart : s.trimStart = t.trimStart)
    (hstop : s.trimEnd = t.trimEnd) : t.trimMoved s = false := by
  unfold trimMoved
  rw [hstart, hstop, Scalar.beq_self h.trimStart, Scalar.beq_self h.trimEnd]
  rfl

theorem zoomMoved_of_eq (h : t.Defined) (hin : s.zoomIn = t.zoomIn)
    (hout : s.zoomOut = t.zoomOut) : t.zoomMoved s = false := by
  unfold zoomMoved
  rw [hin, hout, differ_self h.zoomIn, differ_self h.zoomOut]
  rfl

/-- Where no time changed, nothing is told. -/
theorem tracksExactly_empty (h : t.Defined) (track : Track α) (drag : DragTarget) :
    t.TracksExactly { t with track := track, drag := drag } {} where
  sought _ hx := nomatch hx
  unsought _ := rfl
  trim := (trimMoved_of_eq (s := { t with track := track, drag := drag }) h rfl rfl).symm
  zoom hmoved := by
    rw [zoomMoved_of_eq (s := { t with track := track, drag := drag }) h rfl rfl] at hmoved
    exact nomatch hmoved
  told hzoom := nomatch hzoom

/-- A marker that is put somewhere is told of, moved or not. -/
theorem tracks_setZoomIn (h : t.Defined) (time : α) :
    t.Tracks (t.setZoomIn time).1 (t.setZoomIn time).2 where
  sought _ hx := nomatch hx
  unsought _ := rfl
  trim := (trimMoved_of_eq h rfl rfl).symm
  zoom _ := rfl

/-- A zoom-out that is not placed is not told of. -/
theorem tracks_placeZoomOut (h : t.Defined) (time : α) :
    t.Tracks (t.placeZoomOut time).1 (t.placeZoomOut time).2 := by
  have hempty := (tracksExactly_empty h t.track t.drag).toTracks
  unfold placeZoomOut
  cases t.zoomIn with
  | none => exact hempty
  | some start =>
      dsimp only
      split
      · exact hempty
      · exact ⟨hempty.sought, hempty.unsought, (trimMoved_of_eq h rfl rfl).symm, fun _ => rfl⟩

/-- A removal is told of if there was something to remove. -/
theorem tracksExactly_clearZoom (h : t.Defined) :
    t.TracksExactly t.clearZoom.1 t.clearZoom.2 := by
  have hmoved : t.zoomMoved t.clearZoom.1 = t.clearZoom.2.zoomChanged := by
    unfold zoomMoved clearZoom
    cases t.zoomIn <;> cases t.zoomOut <;> rfl
  have hempty := (tracksExactly_empty h t.track t.drag).toTracks
  exact ⟨⟨hempty.sought, hempty.unsought, (trimMoved_of_eq h rfl rfl).symm,
    hmoved.symm.trans⟩, hmoved.trans⟩

variable [OrderedScalar α]

/-- **A change of the trim and the markers and a seek are told as one update.** -/
theorem tracksExactly_sought {trim zoom : Bool} (hduration : (0 : α) ≤ s.duration)
    (htrim : trim = t.trimMoved s) (hzoom : zoom = t.zoomMoved s) (x : α) :
    t.TracksExactly (s.seek x).1
      { (s.seek x).2 with trimChanged := trim, zoomChanged := zoom } where
  sought y hy := by
    obtain rfl := Option.mem_some.mp hy
    exact ⟨rfl, Scalar.max_min_mem x hduration⟩
  unsought hnone := nomatch hnone
  trim := htrim
  zoom hmoved := hzoom.trans hmoved
  told htold := hzoom.symm.trans htold

/-- Seeking tells of the playhead alone. -/
theorem tracksExactly_seek (h : t.Defined) (x : α) :
    t.TracksExactly (t.seek x).1 (t.seek x).2 :=
  tracksExactly_sought h.duration (trimMoved_of_eq h rfl rfl).symm
    (zoomMoved_of_eq h rfl rfl).symm x

/-- Moving the start of the trim tells of the markers that it has pushed. -/
theorem tracksExactly_setTrimStart (h : t.Defined) (start : α) :
    t.TracksExactly (t.setTrimStart start).1 (t.setTrimStart start).2 := by
  refine tracksExactly_sought (s := ({ t with trimStart := start }).reclampZoom.1) h.duration
    ?_ rfl start
  show (!(start == t.trimStart)) = (!(start == t.trimStart) || !(t.trimEnd == t.trimEnd))
  rw [Scalar.beq_self h.trimEnd, Bool.not_true, Bool.or_false]

theorem tracksExactly_setTrimEnd (h : t.Defined) (stop : α) :
    t.TracksExactly (t.setTrimEnd stop).1 (t.setTrimEnd stop).2 := by
  refine tracksExactly_sought (s := ({ t with trimEnd := stop }).reclampZoom.1) h.duration
    ?_ rfl stop
  show (!(stop == t.trimEnd)) = (!(t.trimStart == t.trimStart) || !(stop == t.trimEnd))
  rw [Scalar.beq_self h.trimStart, Bool.not_true, Bool.false_or]

/-- **A motion of the pointer**, one case for each target. -/
theorem tracksExactly_move (h : t.Defined) (x : α) :
    t.TracksExactly (t.move x).1 (t.move x).2 := by
  have hempty := tracksExactly_empty h t.track t.drag
  unfold move
  cases hdrag : t.drag with
  | none => exact hempty
  | scrubber => exact tracksExactly_seek h _
  | trimStart => exact tracksExactly_setTrimStart h _
  | trimEnd => exact tracksExactly_setTrimEnd h _
  | zoomIn =>
      cases hin : t.zoomIn with
      | none => exact hempty
      | some start =>
          refine tracksExactly_sought (s := { t with zoomIn := some _, drag := .zoomIn })
            h.duration (trimMoved_of_eq h rfl rfl).symm ?_ _
          -- The zoom-out stays, so the markers moved exactly if this one did.
          unfold zoomMoved
          rw [hin, differ_self h.zoomOut, Bool.or_false]
  | zoomOut =>
      cases hin : t.zoomIn with
      | none => exact hempty
      | some start =>
          cases hout : t.zoomOut with
          | none => exact hempty
          | some out =>
              have hkept := differ_self h.zoomIn
              rw [hin] at hkept
              refine tracksExactly_sought (s := { t with
                zoomIn := some start, zoomOut := some _, drag := .zoomOut })
                h.duration (trimMoved_of_eq h rfl rfl).symm ?_ _
              unfold zoomMoved
              rw [hin, hout, hkept, Bool.false_or]

/-- **A pointer event** of any kind. -/
theorem tracksExactly_handle (h : t.Defined) (e : PointerEvent α) :
    t.TracksExactly (t.handle e).1 (t.handle e).2 := by
  have hlatched (drag : DragTarget) := tracksExactly_empty h t.track drag
  unfold handle
  cases e.phase with
  | move => exact tracksExactly_move h e.x
  | up | leave => exact hlatched .none
  | down =>
      unfold down
      dsimp only
      split
      · exact tracksExactly_sought (s := { t with drag := t.hit e.x }) h.duration
          (hlatched _).trim (zoomMoved_of_eq h rfl rfl).symm _
      · exact hlatched _

/-! ## §4. Every reachable state. -/

/-- **One operation** is told of, by whatever it reports. -/
theorem tracks_act (h : t.Defined) (a : TimelineAction α) {u : TimelineUpdate α}
    (hu : t.report? a = some u) :
    t.Tracks (t.act a) u ∧ (a.placesMarker = false → t.TracksExactly (t.act a) u) := by
  cases a with
  | handle e =>
      obtain rfl := Option.some.inj hu
      have hexact := tracksExactly_handle h e
      exact ⟨hexact.toTracks, fun _ => hexact⟩
  | seek time =>
      obtain rfl := Option.some.inj hu
      have hexact := tracksExactly_seek h time
      exact ⟨hexact.toTracks, fun _ => hexact⟩
  | setZoomIn time =>
      obtain rfl := Option.some.inj hu
      exact ⟨tracks_setZoomIn h time, fun hfalse => nomatch hfalse⟩
  | placeZoomOut time =>
      obtain rfl := Option.some.inj hu
      exact ⟨tracks_placeZoomOut h time, fun hfalse => nomatch hfalse⟩
  | clearZoom =>
      obtain rfl := Option.some.inj hu
      have hexact := tracksExactly_clearZoom h
      exact ⟨hexact.toTracks, fun _ => hexact⟩
  | setTrack track | release | restore trim zoom => exact nomatch hu

/-- **UPDATES TRACK CHANGES**: whatever operations led to a state, and whatever operation
comes next, its update tells where the playhead went, whether the trim moved, and of every
change of the markers; and it tells of no other, unless a marker is put where it was.  The
tuning, the duration and all arguments may be undefined or infinite. -/
theorem updates_track_changes (tuning : TimelineTuning α) (duration : α) (track : Track α)
    (actions : List (TimelineAction α)) (a : TimelineAction α) (u : TimelineUpdate α) :
    let t := (fresh tuning duration track).run actions
    t.report? a = some u →
      t.Tracks (t.act a) u ∧ (a.placesMarker = false → t.TracksExactly (t.act a) u) := by
  intro t hu
  exact tracks_act (defined_run actions (defined_fresh tuning duration track)) a hu

/-- Doubles: the end of the trim is dragged over both markers and then to a position that is
no number, which leaves the least trim. -/
theorem updates_track_changes_dragged :
    let config : Config Float := {}
    let t := (fresh config.interaction.timelineTuning 10 ⟨0, 1000⟩).run
      [.setZoomIn 3, .placeZoomOut 6, .handle ⟨.down, 1000, 0⟩, .handle ⟨.move, 200, 0⟩]
    let a : TimelineAction Float := .handle ⟨.move, 0 / 0, 0⟩
    let u : TimelineUpdate Float := ⟨some 0.5, true, true⟩
    t.report? a = some u ∧ t.TracksExactly (t.act a) u := by
  intro config t a u
  have hu : t.report? a = some u := by decide +kernel
  obtain ⟨-, hexact⟩ :=
    updates_track_changes config.interaction.timelineTuning 10 ⟨0, 1000⟩ _ a u hu
  exact ⟨hu, hexact rfl⟩

end Timeline
end GifEdit
