/-
  GifEdit.Proofs.Editor.Settling
  ──────────────────────────────
  **WHAT IS LEFT OF AN EDIT THAT IS REOPENED AGAIN AND AGAIN.**

  An edit that was read back from a session has lost what its surfaces cannot show.  In a
  window of the same size, with the same configuration, the next session shows it so:

      clip, settings, backdrop   as they were read back
      trim                       as it was read back, for it lies in the clip
      zoom                       as it was read back, for it keeps the gap in the trim,
                                 unless the crop goes
      crop                       where it was, but a side that was made even may be shown
                                 a canvas unit shorter than before

  So another round may only shrink the crop, and as sides are even and shrink by two pixels
  at least, it comes to rest, or is gone, after finitely many rounds.

  Main result: `reopening_settles`.  Neither the configuration nor the first edit has to be
  accepted for it; what was read back has been checked.
-/
import GifEdit.Proofs.Editor.Reopening
import GifEdit.Proofs.Geometry.Settling

namespace GifEdit

open Exact

/-! ## §1. The timeline. -/

/-- The gap of a timeline is a number, or undefined if it is so in the configuration. -/
theorem Interaction.minZoomGap_cases (i : Interaction Exact) :
    (∃ gap, i.timelineTuning.minZoomGap = rational gap)
      ∨ i.timelineTuning.minZoomGap = undefined := by
  show (∃ gap, Scalar.clamp i.minZoomGap 0.1 0.5 = rational gap)
    ∨ Scalar.clamp i.minZoomGap 0.1 0.5 = undefined
  rw [fraction_eq, fraction_eq]
  cases i.minZoomGap with
  | rational q => exact .inl ⟨_, clamp_rational (by norm_num)⟩
  | undefined => exact .inr rfl
  | negInfinity => exact .inl ⟨_, rfl⟩
  | posInfinity => exact .inl ⟨_, rfl⟩

namespace Timeline

variable {s e d : ℚ} {t : Timeline Exact}

/-- The timeline of a clip that was checked is as long as the clip. -/
theorem fresh_duration_eq {source : Clip Exact} (hsource : source.check = .ok ())
    (tuning : TimelineTuning Exact) (track : Track Exact) :
    (fresh tuning source.duration track).duration = source.duration := by
  obtain ⟨d, hduration, hd⟩ := Clip.exists_duration hsource
  rw [hduration]
  exact fresh_duration tuning hd.le track

theorem reclampZoom_eq_self (h : t.reclampZoom.1.zoomWindow = t.zoomWindow) :
    t.reclampZoom.1 = t := by
  obtain ⟨hin, hout⟩ := ZoomWindow.mk.inj h
  show { t with zoomIn := t.reclampZoom.1.zoomIn, zoomOut := t.reclampZoom.1.zoomOut } = t
  rw [hin, hout]

/-- No zoom-out is left alone. -/
theorem reclampZoom_zoomOut_eq_none (h : t.reclampZoom.1.zoomIn = .none) :
    t.reclampZoom.1.zoomOut = .none := by
  unfold reclampZoom at h ⊢
  dsimp only at h ⊢
  split at h
  · split at h <;> exact nomatch h
  · exact nomatch h
  · rfl

/-- **Markers that were pulled into a trim stay**, also where the gap is undefined and the
zoom-out is always dropped. -/
theorem reclampZoom_again
    (hgap : (∃ gap, t.tuning.minZoomGap = rational gap) ∨ t.tuning.minZoomGap = undefined)
    (hstart : t.trimStart = rational s) (hstop : t.trimEnd = rational e) (hse : s ≤ e) :
    t.reclampZoom.1.reclampZoom.1 = t.reclampZoom.1 := by
  refine reclampZoom_eq_self ?_
  rcases hgap with ⟨gap, hgap⟩ | hgap
  · exact reclampZoom_of_fits (t := t.reclampZoom.1) hgap hstart hstop
      (fits_reclampZoom hgap hstart hstop hse)
  · have hnever : ¬ (undefined : Exact) ≤ rational e - rational s := fun h => nomatch h
    unfold reclampZoom zoomWindow
    simp only [hstart, hstop, hgap, hnever, if_false]
    cases t.zoomIn with
    | none => rfl
    | some v =>
        obtain ⟨a, ha, hlo, hhi⟩ := clampBetween_eq v hse
        cases t.zoomOut <;> simp only [ha, clampBetween_of_mem hlo hhi]

/-- **A saved edit that a timeline took over is taken over as it is.** -/
theorem restore_again
    (hgap : (∃ gap, t.tuning.minZoomGap = rational gap) ∨ t.tuning.minZoomGap = undefined)
    (hduration : t.duration = rational d) (hd : 0 ≤ d) (trim : TrimRange Exact)
    (zoom : ZoomWindow Exact) :
    let once := t.restore trim zoom
    t.restore ⟨once.trimStart, once.trimEnd⟩ once.zoomWindow = once := by
  intro once
  obtain ⟨q, hq, hq0, hqd⟩ := clampBetween_eq trim.start hd
  obtain ⟨r, hr, hqr, hrd⟩ := clampBetween_eq trim.stop hqd
  have hstart : clampBetween trim.start 0 t.duration = rational q := by
    rw [hduration, literal_eq, Nat.cast_zero, hq]
  have hstop : clampBetween trim.stop (rational q) t.duration = rational r := by
    rw [hduration, hr]
  -- The markers before and after they were pulled into the trim.
  let given := t.put q r ⟨zoom.start, if zoom.start.isSome then zoom.stop else .none⟩
  let pulled := given.reclampZoom.1
  have honce : once = { pulled with drag := .none } := by
    show t.restore trim zoom = _
    unfold restore
    simp only [hstart, hstop]
    rfl
  have hpulled : pulled.reclampZoom.1 = pulled := reclampZoom_again (t := given) hgap rfl rfl hqr
  rw [honce]
  show t.restore ⟨rational q, rational r⟩ pulled.zoomWindow = _
  rw [restore_eq hduration hd hq0 hqr reclampZoom_zoomOut_eq_none, min_eq_left hqd,
    min_eq_left hrd]
  show { pulled.reclampZoom.1 with drag := .none } = { pulled with drag := .none }
  rw [hpulled]

end Timeline

/-! ## §2. One session after the other. -/

namespace Session

section Sessions

variable {α : Type} [Scalar α] {edit again : Specification α} {config : Config α}
  {container : Size α} {track : Track α}

/-- A snapshot is the edit that the session shows, and it was checked. -/
theorem edit_of_snapshot {s : Session α} (h : s.snapshot = .ok again) :
    again = s.edit ∧ again.Accepted := by
  unfold snapshot at h
  simp only [bind_eq_ok] at h
  obtain ⟨trim, htrim, hparts⟩ := h
  unfold Timeline.trimRange at htrim
  obtain ⟨-, rfl⟩ := TrimRange.ofBounds_eq_ok.mp htrim
  exact ⟨Specification.eq_of_ofParts hparts, Specification.accepted_of_ofParts hparts⟩

/-- The session that continues an edit. -/
def continued (edit : Specification α) (config : Config α) (container : Size α)
    (track : Track α) : Session α where
  source := edit.source
  crop :=
    let fresh := Cropper.fresh config.interaction.cropTuning edit.source.frame
      (container.fit edit.source.frame)
    match edit.crop with
    | some r => fresh.restore r edit.zoom.start
    | none => fresh
  timeline := (Timeline.fresh config.interaction.timelineTuning edit.source.duration
    track).restore edit.trim edit.zoom
  exportSettings := edit.exportSettings
  background := edit.background

/-- Whether a session can start on a clip. -/
def Starts (source : Clip α) (config : Config α) : Prop :=
  source.check = .ok ()
    ∧ (∃ settings, (config.exportDefaults.settings : Except (SessionError α) _) = .ok settings)
    ∧ ∃ backdrop, config.background.settings = .ok backdrop

theorem resume_eq_ok_iff {s : Session α} : resume edit config container track = .ok s
    ↔ Starts edit.source config ∧ s = continued edit config container track := by
  rw [resume_eq_ok]
  constructor
  · rintro ⟨s₀, hs₀, rfl⟩
    obtain ⟨hsource, settings, backdrop, hsettings, hbackdrop, rfl⟩ := start_eq_ok.mp hs₀
    exact ⟨⟨hsource, ⟨settings, hsettings⟩, backdrop, hbackdrop⟩, rfl⟩
  · rintro ⟨⟨hsource, ⟨settings, hsettings⟩, backdrop, hbackdrop⟩, rfl⟩
    exact ⟨_, start_eq_ok.mpr ⟨hsource, settings, backdrop, hsettings, hbackdrop, rfl⟩, rfl⟩

/-- What is read back is the edit that the session shows. -/
theorem reopen?_eq_some : reopen? edit config container track = some again
    ↔ Starts edit.source config
      ∧ (continued edit config container track).snapshot = .ok again := by
  have htoOption {ε β : Type} {x : Except ε β} {b : β} : x.toOption = some b ↔ x = .ok b := by
    cases x <;> simp [Except.toOption]
  unfold reopen?
  simp only [Option.bind_eq_some_iff, htoOption, resume_eq_ok_iff]
  constructor
  · rintro ⟨s, ⟨hstarts, rfl⟩, hs⟩
    exact ⟨hstarts, hs⟩
  · rintro ⟨hstarts, hs⟩
    exact ⟨_, ⟨hstarts, rfl⟩, hs⟩

/-- The canvas of a session that continues an edit shows the frame of its clip. -/
theorem continued_frame :
    (continued edit config container track).crop.source = edit.source.frame := by
  unfold continued
  cases edit.crop <;> rfl

/-- The crop of a session that continues an edit is what its canvas shows. -/
theorem continued_crop : (continued edit config container track).crop.sourceRegion
    = edit.crop.bind (·.throughCanvas (container.fit edit.source.frame) edit.source.frame) := by
  unfold continued
  cases edit.crop <;> rfl

end Sessions

end Session

/-! ## §3. One round. -/

/-- `again` is `edit` with a crop of its own.  The markers go with the crop. -/
structure Specification.Recropped {α : Type} (edit again : Specification α) : Prop where
  source : again.source = edit.source
  exportSettings : again.exportSettings = edit.exportSettings
  background : again.background = edit.background
  trim : again.trim = edit.trim
  zoom : again.zoom = if again.crop.isSome then edit.zoom else .none

/-- Whether anything is lost is for the crop to decide. -/
theorem Specification.Recropped.eq_iff {α : Type} [Scalar α] {edit again : Specification α}
    (h : edit.Recropped again) (hedit : edit.Accepted) :
    again = edit ↔ again.crop = edit.crop := by
  refine ⟨fun heq => congrArg Specification.crop heq, fun hcrop => ?_⟩
  have hzoom : again.zoom = edit.zoom := by
    rw [h.zoom, hcrop]
    cases hr : edit.crop with
    | none => exact (hedit.zoom_eq_none hr).symm
    | some r => rfl
  show Specification.mk again.source again.trim again.crop again.zoom again.exportSettings
    again.background = edit
  rw [h.source, h.trim, hcrop, hzoom, h.exportSettings, h.background]

/-- `twice` is what is left of `once` when it is reopened in the window that it was read
back from. -/
structure Specification.SettlesTo (once : Specification Exact) (canvas : Size Exact)
    (twice : Specification Exact) : Prop extends once.Recropped twice where
  /-- The crop is what the canvas shows of it. -/
  crop : twice.crop = once.crop.bind (·.throughCanvas canvas once.source.frame)
  /-- It stays where it is, and does not grow. -/
  cropShrinks : ∀ r ∈ once.crop, ∀ r' ∈ twice.crop,
    r.ShrinksTo (axisScale once.source.frame.height canvas.height) r'
  /-- It is lost only if a side has no more pixels than could be lost. -/
  cropLost : ∀ r ∈ once.crop, twice.crop = none →
    let scale := axisScale once.source.frame.height canvas.height
    Scalar.ofNat r.width < scale / 2 + 1.5 ∨ Scalar.ofNat r.height < scale / 2 + 1.5
  /-- Nothing is lost exactly if the crop is kept on the canvas. -/
  kept_iff : twice = once ↔ ∀ r ∈ once.crop, r.KeptOn canvas once.source.frame
  /-- And nothing is lost where a canvas unit is no wider than a pixel. -/
  fine : axisScale once.source.frame.height canvas.height ≤ 1 → twice = once

namespace Session

variable {edit once : Specification Exact} {config : Config Exact} {container : Size Exact}
  {track : Track Exact}

/-- The trim that was read back is there again, and so are the markers if there are any. -/
theorem continued_again (hsource : edit.source.check = .ok ())
    (honce : once = (continued edit config container track).edit) :
    (continued once config container track).edit.trim = once.trim
      ∧ (once.crop.isSome = true →
          (continued once config container track).timeline.zoomWindow = once.zoom) := by
  obtain ⟨d, hduration, hd⟩ := Clip.exists_duration hsource
  let fresh := Timeline.fresh config.interaction.timelineTuning edit.source.duration track
  let shown := fresh.restore edit.trim edit.zoom
  have hfresh : fresh.duration = rational d :=
    (Timeline.fresh_duration_eq hsource _ track).trans hduration
  -- Restoring what was shown shows it again.
  have hagain : fresh.restore ⟨shown.trimStart, shown.trimEnd⟩ shown.zoomWindow = shown :=
    Timeline.restore_again (t := fresh) config.interaction.minZoomGap_cases hfresh hd.le edit.trim
      edit.zoom
  subst honce
  constructor
  · -- The markers have no part in where a trim is restored to.
    show TrimRange.mk (fresh.restore ⟨shown.trimStart, shown.trimEnd⟩ shown.zoomWindow).trimStart
      (fresh.restore ⟨shown.trimStart, shown.trimEnd⟩ shown.zoomWindow).trimEnd = _
    rw [hagain]
    rfl
  · intro hcrop
    have hzoom : (continued edit config container track).edit.zoom = shown.zoomWindow :=
      if_pos hcrop
    rw [hzoom]
    show (fresh.restore ⟨shown.trimStart, shown.trimEnd⟩
      (continued edit config container track).edit.zoom).zoomWindow = _
    rw [hzoom, hagain]

/-- Without a crop there are no markers to show, and none are shown. -/
theorem continued_zoom (hsource : edit.source.check = .ok ())
    (honce : once = (continued edit config container track).edit) :
    let next := (continued once config container track).edit
    (next.crop.isSome = true → once.crop.isSome = true)
      ∧ next.zoom = if next.crop.isSome then once.zoom else .none := by
  intro next
  have hhad : next.crop.isSome = true → once.crop.isSome = true := by
    rw [show next.crop = _ from continued_crop]
    cases once.crop with
    | none => exact id
    | some r => exact fun _ => rfl
  refine ⟨hhad, ?_⟩
  show (if next.crop.isSome then
    (continued once config container track).timeline.zoomWindow else .none) = _
  split
  · rename_i hsome
    exact (continued_again hsource honce).2 (hhad hsome)
  · rfl

/-- **An edit that was read back can be reopened**, and what is shown then is checked. -/
theorem continued_snapshot (hsource : edit.source.check = .ok ())
    (honce : once = (continued edit config container track).edit) (haccepted : once.Accepted) :
    (continued once config container track).snapshot
      = .ok (continued once config container track).edit := by
  let next := continued once config container track
  obtain ⟨htrim, -⟩ := continued_again hsource honce
  obtain ⟨hhad, hzoom⟩ := continued_zoom hsource honce
  refine snapshot_eq (Timeline.fresh_duration_eq haccepted.source
    config.interaction.timelineTuning track)
    ⟨haccepted.source, ?_, ?_, ?_, haccepted.background⟩
  · rw [htrim]
    exact haccepted.trim
  · have hframe : next.crop.source = once.source.frame := continued_frame
    have hchecked := next.crop.checkCrop_sourceRegion (α := Exact)
    rw [hframe] at hchecked
    exact hchecked
  · rw [hzoom, htrim]
    cases hsome : next.edit.crop.isSome with
    | false => rfl
    | true =>
        have hchecked := haccepted.zoom
        rw [hhad hsome] at hchecked
        exact hchecked

/-- A crop that was read back is shown as a region that was read back before. -/
theorem continued_crop_again (hsource : edit.source.check = .ok ())
    (hroom : container.hasRoom = true) (hwidth : edit.source.width ≤ Scalar.wordMax)
    (hheight : edit.source.height ≤ Scalar.wordMax)
    (honce : once = (continued edit config container track).edit) :
    let canvas := container.fit once.source.frame
    let f := once.source.frame
    let scale := axisScale f.height canvas.height
    ∀ r ∈ once.crop,
      (∀ r' ∈ r.throughCanvas canvas f, r.ShrinksTo scale r')
        ∧ (r.throughCanvas canvas f = none →
            Scalar.ofNat r.width < scale / 2 + 1.5 ∨ Scalar.ofNat r.height < scale / 2 + 1.5)
        ∧ (r.throughCanvas canvas f = some r ↔ r.KeptOn canvas f)
        ∧ (scale ≤ 1 → r.throughCanvas canvas f = some r) := by
  intro canvas f scale r hr
  have hpixels := Clip.frame_hasPixels hsource
  subst honce
  have hread := continued_crop.symm.trans (Option.mem_def.mp hr)
  -- The crop was read from a canvas already, and on that canvas it settles.
  obtain ⟨r₀, -, hr₀⟩ := Option.bind_eq_some_iff.mp hread
  obtain ⟨h, hh, hfit⟩ := Size.fit_eq hpixels hroom
  rw [hfit] at hr₀
  have hagain := Region.throughCanvas_again hpixels hh hwidth hheight hr₀
  rw [← hfit] at hagain
  exact hagain

/-- **Only the crop of an edit that was read back may shrink.** -/
theorem continued_settles (hsource : edit.source.check = .ok ())
    (hroom : container.hasRoom = true) (hwidth : edit.source.width ≤ Scalar.wordMax)
    (hheight : edit.source.height ≤ Scalar.wordMax)
    (honce : once = (continued edit config container track).edit) (haccepted : once.Accepted) :
    once.SettlesTo (container.fit once.source.frame)
      (continued once config container track).edit := by
  let canvas := container.fit once.source.frame
  let twice := (continued once config container track).edit
  have hrecropped : once.Recropped twice := ⟨rfl, rfl, rfl, (continued_again hsource honce).1,
    (continued_zoom hsource honce).2⟩
  have hcrops := continued_crop_again hsource hroom hwidth hheight honce
  have hcrop : twice.crop = once.crop.bind (·.throughCanvas canvas once.source.frame) :=
    continued_crop
  -- Nothing but the crop can differ, so all is said of the crop.
  have hsame : twice = once
      ↔ ∀ r ∈ once.crop, r.throughCanvas canvas once.source.frame = some r := by
    rw [hrecropped.eq_iff haccepted, hcrop]
    cases once.crop <;> simp
  have hshown (r : Region) (hr : r ∈ once.crop) :
      twice.crop = r.throughCanvas canvas once.source.frame := by
    rw [hcrop, Option.mem_def.mp hr]
    rfl
  refine ⟨hrecropped, hcrop, fun r hr r' hr' => ?_, fun r hr hnone => ?_, ?_, fun hscale => ?_⟩
  · exact (hcrops r hr).1 r' ((hshown r hr).symm.trans hr')
  · exact (hcrops r hr).2.1 ((hshown r hr).symm.trans hnone)
  · exact hsame.trans (forall₂_congr fun r hr => (hcrops r hr).2.2.1)
  · exact hsame.mpr fun r hr => (hcrops r hr).2.2.2 hscale

/-! ## §4. Many rounds. -/

/-- What is left of an edit that is reopened so many times. -/
def reopenTimes? {α : Type} [Scalar α] (config : Config α) (container : Size α)
    (track : Track α) : ℕ → Specification α → Option (Specification α)
  | 0, edit => some edit
  | n + 1, edit =>
      (reopen? edit config container track).bind (reopenTimes? config container track n)

/-- **One round.** -/
theorem reopen?_again (hroom : container.hasRoom = true)
    (hwidth : edit.source.width ≤ Scalar.wordMax) (hheight : edit.source.height ≤ Scalar.wordMax)
    (hfirst : reopen? edit config container track = some once) :
    once.source = edit.source ∧ once.Accepted
      ∧ ∃ twice, reopen? once config container track = some twice
        ∧ once.SettlesTo (container.fit once.source.frame) twice := by
  obtain ⟨hstarts, hsnapshot⟩ := reopen?_eq_some.mp hfirst
  obtain ⟨honce, haccepted⟩ := edit_of_snapshot hsnapshot
  have hsource : once.source = edit.source := by
    rw [honce]
    rfl
  refine ⟨hsource, haccepted, (continued once config container track).edit,
    reopen?_eq_some.mpr ⟨?_, continued_snapshot hstarts.1 honce haccepted⟩,
    continued_settles hstarts.1 hroom hwidth hheight honce haccepted⟩
  rw [hsource]
  exact hstarts

end Session

/-- The sides of the crop, if there is one. -/
def Specification.cropSides {α : Type} (edit : Specification α) : ℕ :=
  edit.crop.elim 0 fun r => r.width + r.height

/-- **A round that changes something takes two pixels.** -/
theorem Specification.SettlesTo.cropSides_lt {once twice : Specification Exact}
    {canvas : Size Exact} (h : once.SettlesTo canvas twice) (honce : once.Accepted)
    (htwice : twice.Accepted) (hne : twice ≠ once) :
    twice.cropSides + 2 ≤ once.cropSides := by
  have hchecked := honce.crop
  have hchecked' := htwice.crop
  unfold cropSides
  cases hr : once.crop with
  | none =>
      -- Without a crop nothing can change.
      refine absurd (h.kept_iff.mpr fun r hr' => ?_) hne
      rw [hr] at hr'
      exact nomatch hr'
  | some r =>
      rw [hr, checkCrop_eq_ok] at hchecked
      obtain ⟨-, hlarge, heven⟩ := hchecked
      cases hr' : twice.crop with
      | none =>
          have hsides := Region.two_le_sides hlarge
          show 0 + 2 ≤ r.width + r.height
          omega
      | some r' =>
          rw [hr', checkCrop_eq_ok] at hchecked'
          refine (h.cropShrinks r hr r' hr').sides_lt heven hchecked'.2.2 fun heq => hne ?_
          rw [h.eq_iff honce, hr', hr, heq]

namespace Session

variable {edit once : Specification Exact} {config : Config Exact} {container : Size Exact}
  {track : Track Exact}

/-- **After finitely many rounds nothing changes any more.** -/
theorem exists_settled (hroom : container.hasRoom = true) : ∀ (sides : ℕ)
    {edit once : Specification Exact}, edit.source.width ≤ Scalar.wordMax →
      edit.source.height ≤ Scalar.wordMax →
      reopen? edit config container track = some once → once.cropSides ≤ sides →
      ∃ n last, 2 * n ≤ sides ∧ reopenTimes? config container track n once = some last
        ∧ reopen? last config container track = some last := by
  intro sides
  induction sides using Nat.strong_induction_on with
  | _ sides ih =>
      intro edit once hwidth hheight hfirst hsides
      obtain ⟨hsource, haccepted, twice, htwice, hsettles⟩ :=
        reopen?_again hroom hwidth hheight hfirst
      -- A round that changes the edit takes two pixels off its sides, so there are few of them.
      by_cases hsame : twice = once
      · rw [hsame] at htwice
        exact ⟨0, once, by omega, rfl, htwice⟩
      · rw [← hsource] at hwidth hheight
        obtain ⟨-, haccepted', -⟩ := reopen?_again hroom hwidth hheight htwice
        have hless := hsettles.cropSides_lt haccepted haccepted' hsame
        obtain ⟨n, last, hn, hrounds, hlast⟩ :=
          ih (sides - 2) (by omega) hwidth hheight htwice (by omega)
        refine ⟨n + 1, last, by omega, ?_, hlast⟩
        show (reopen? once config container track).bind _ = _
        rw [htwice]
        exact hrounds

/-- **REOPENING SETTLES.**  What was read back from a session can be reopened in a window of
the same size, and then only the crop may shrink further, never shift or grow: by less than
half a canvas unit and a pixel and a half on a side, and not at all exactly if its box keeps
all but half a pixel of either side.  Going on so, nothing changes any more after half as
many rounds as the crop had pixels along its sides. -/
theorem reopening_settles (edit once : Specification Exact) (config : Config Exact)
    (container : Size Exact) (track : Track Exact) (hroom : container.hasRoom = true)
    (hwidth : edit.source.width ≤ Scalar.wordMax) (hheight : edit.source.height ≤ Scalar.wordMax)
    (hfirst : reopen? edit config container track = some once) :
    (∃ twice, reopen? once config container track = some twice
        ∧ once.SettlesTo (container.fit once.source.frame) twice)
      ∧ ∃ n last, 2 * n ≤ once.cropSides
        ∧ reopenTimes? config container track n once = some last
        ∧ reopen? last config container track = some last := by
  obtain ⟨-, -, hround⟩ := reopen?_again hroom hwidth hheight hfirst
  exact ⟨hround, exists_settled hroom once.cropSides hwidth hheight hfirst le_rfl⟩

/-- A crop on a canvas of a third of the video shifts to whole canvas units, and then stays. -/
theorem reopening_settles_third :
    let edit : Specification Exact := ⟨⟨"clip.mp4", 10, 1920, 1080⟩, ⟨1, 9⟩,
      some ⟨481, 271, 960, 540⟩, ⟨some 3, some 6⟩, .standard, .standard⟩
    let once : Specification Exact := { edit with crop := some ⟨480, 270, 960, 540⟩ }
    let config : Config Exact := {}
    let container : Size Exact := ⟨640, 400⟩
    reopen? edit config container ⟨0, 1000⟩ = some once
      ∧ reopen? once config container ⟨0, 1000⟩ = some once := by
  intro edit once config container
  have hfirst : reopen? edit config container ⟨0, 1000⟩ = some once := by decide +kernel
  obtain ⟨⟨twice, htwice, hsettles⟩, -⟩ := reopening_settles edit once config container ⟨0, 1000⟩
    rfl (by decide) (by decide) hfirst
  have hkept : ∀ r ∈ once.crop, r.KeptOn (container.fit once.source.frame) once.source.frame := by
    rintro r ⟨rfl⟩
    unfold Region.KeptOn
    decide +kernel
  rw [hsettles.kept_iff.mpr hkept] at htwice
  exact ⟨hfirst, htwice⟩

/-- **Reopening is not stable**: an accepted edit is read back with a crop that is two pixels
narrower, and when that is reopened in the same window, the crop is narrower again. -/
theorem reopening_may_shrink_again :
    let source : Clip Exact := ⟨"clip.mp4", 10, 1920, 1080⟩
    let edit : Specification Exact := ⟨source, ⟨0, 10⟩, some ⟨480, 270, 974, 540⟩,
      ⟨some 3, none⟩, .standard, .standard⟩
    let once : Specification Exact := { edit with crop := some ⟨480, 270, 972, 540⟩ }
    let twice : Specification Exact := { edit with crop := some ⟨480, 270, 970, 540⟩ }
    let config : Config Exact := {}
    let container : Size Exact := ⟨1024, 576⟩
    Specification.ofParts source edit.trim edit.crop edit.zoom .standard .standard = .ok edit
      ∧ config.check = .ok ()
      ∧ reopen? edit config container ⟨0, 1000⟩ = some once
      ∧ reopen? once config container ⟨0, 1000⟩ = some twice ∧ twice ≠ once := by
  decide +kernel

end Session
end GifEdit
