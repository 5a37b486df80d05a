/-
  GifEdit.Proofs.Editor.Reopening
  ───────────────────────────────
  **WHAT A SAVED EDIT KEEPS WHEN IT IS REOPENED.**

  A session that continues an edit shows its parts on surfaces of its own, and a snapshot
  reads them back from there:

      clip, settings, backdrop   as they were saved
      trim                       clamped to the clip
      zoom                       pulled into the trim, with the gap of the configuration
      crop                       in whole canvas units, and back in whole pixels

  The check of an edit lets times exceed the clip and the trim by a slack and knows only
  the least gap of all, so an accepted edit may have to give way on the timeline.  And the
  session makes the settings of a new edit from its configuration before it takes the saved
  ones, so a configuration whose settings are refused reopens nothing.

  Main result: `reopening_keeps_edit`.
-/
import GifEdit.Proofs.Editor.Snapshot
import GifEdit.Proofs.Geometry.Rounding

namespace GifEdit

open Exact

/-! ## §1. Markers. -/

namespace ZoomWindow

/-- The markers lie in a trim, with at least a gap between them. -/
def LiesIn {α : Type} [Scalar α] (z : ZoomWindow α) (gap : α) (trim : TrimRange α) : Prop :=
  ∀ a ∈ z.start, (trim.start ≤ a ∧ a ≤ trim.stop)
    ∧ ∀ b ∈ z.stop, a + gap ≤ b ∧ b ≤ trim.stop

variable {gap gap' s s' e e' : ℚ} {z : ZoomWindow Exact}

theorem Fits.liesIn (h : z.Fits gap s e) (hgap : 0 ≤ gap) :
    z.LiesIn (rational gap) ⟨rational s, rational e⟩ := by
  cases h with
  | unset => exact fun a ha => nomatch ha
  | zoomIn hlo hhi =>
      rintro a ⟨rfl⟩
      exact ⟨⟨rational_le.mpr hlo, rational_le.mpr hhi⟩, fun b hb => nomatch hb⟩
  | both hlo hroom hhi =>
      rintro a ⟨rfl⟩
      refine ⟨⟨rational_le.mpr hlo, rational_le.mpr (by linarith)⟩, ?_⟩
      rintro b ⟨rfl⟩
      exact ⟨rational_le.mpr hroom, rational_le.mpr hhi⟩

/-- Finite markers, if a zoom-out has a zoom-in. -/
theorem Fits.of_liesIn (h : z.Fits gap' s' e')
    (hz : z.LiesIn (rational gap) ⟨rational s, rational e⟩) : z.Fits gap s e := by
  cases h with
  | unset => exact .unset
  | zoomIn _ _ =>
      obtain ⟨⟨hlo, hhi⟩, -⟩ := hz _ rfl
      exact .zoomIn (rational_le.mp hlo) (rational_le.mp hhi)
  | both _ _ _ =>
      obtain ⟨⟨hlo, -⟩, hout⟩ := hz _ rfl
      obtain ⟨hroom, hhi⟩ := hout _ rfl
      exact .both (rational_le.mp hlo) (rational_le.mp hroom) (rational_le.mp hhi)

/-- There is no zoom-out alone. -/
theorem Fits.stop_eq_none (h : z.Fits gap s e) (hstart : z.start = .none) : z.stop = .none := by
  cases h with
  | unset => rfl
  | zoomIn _ _ => exact nomatch hstart
  | both _ _ _ => exact nomatch hstart

end ZoomWindow

/-! ## §2. The timeline. -/

namespace Timeline

variable {gap d a b : ℚ} {t : Timeline Exact} {zoom : ZoomWindow Exact}

theorem fresh_duration (tuning : TimelineTuning Exact) (hd : 0 ≤ d) (track : Track Exact) :
    (fresh tuning (rational d) track).duration = rational d := by
  unfold fresh
  simp only [isFinite_rational, if_true, literal_eq, Nat.cast_zero, max_rational, max_eq_left hd]

/-- The timeline with a trim and markers that nothing has checked yet. -/
def put (t : Timeline Exact) (start stop : ℚ) (zoom : ZoomWindow Exact) : Timeline Exact :=
  { t with trimStart := rational start, trimEnd := rational stop, zoomIn := zoom.start,
           zoomOut := zoom.stop }

/-- A trim is cut at the end of the clip, and then the markers are pulled into it. -/
theorem restore_eq (hduration : t.duration = rational d) (hd : 0 ≤ d) (ha : 0 ≤ a) (hab : a ≤ b)
    (hzoom : zoom.start = .none → zoom.stop = .none) :
    t.restore ⟨rational a, rational b⟩ zoom =
      { (t.put (min a d) (min b d) zoom).reclampZoom.1 with drag := .none } := by
  have hstart : clampBetween (rational a) 0 t.duration = rational (min a d) := by
    unfold clampBetween
    rw [hduration, literal_eq, Nat.cast_zero, min_rational, max_rational,
      max_eq_left (le_min ha hd)]
  have hstop : clampBetween (rational b) (rational (min a d)) t.duration
      = rational (min b d) := by
    unfold clampBetween
    rw [hduration, min_rational, max_rational, max_eq_left (min_le_min_right d hab)]
  have hout : (if zoom.start.isSome then zoom.stop else .none) = zoom.stop := by
    cases hin : zoom.start with
    | none => exact (hzoom hin).symm
    | some x => rfl
  unfold restore put
  simp only [hstart, hstop, hout]

end Timeline

/-! ## §3. The session. -/

namespace Session

variable {α : Type} [Scalar α]

/-- What a session continues with. -/
theorem resume_eq_ok {edit : Specification α} {config : Config α} {container : Size α}
    {track : Track α} {s : Session α} : resume edit config container track = .ok s ↔
      ∃ s₀, start edit.source config container track = .ok s₀ ∧ s = { s₀ with
        exportSettings := edit.exportSettings
        background := edit.background
        timeline := s₀.timeline.restore edit.trim edit.zoom
        crop := match edit.crop with
          | some r => s₀.crop.restore r edit.zoom.start
          | none => s₀.crop } := by
  unfold resume
  simp only [bind_eq_ok]
  refine exists_congr fun s₀ => and_congr_right fun _ => ?_
  exact ⟨fun h => (Except.ok.inj h).symm, fun h => congrArg Except.ok h.symm⟩

/-- `s` shows `edit`, whose trim is `[a, b]`, on a clip of duration `d`. -/
structure Continues (edit : Specification Exact) (gap d a b : ℚ) (canvas : Size Exact)
    (s : Session Exact) : Prop where
  source : s.source = edit.source
  exportSettings : s.exportSettings = edit.exportSettings
  background : s.background = edit.background
  frame : s.crop.source = edit.source.frame
  crop : s.crop.sourceRegion = edit.crop.bind (·.throughCanvas canvas edit.source.frame)
  duration : s.timeline.duration = rational d
  start : s.timeline.trimStart = rational (min a d)
  stop : s.timeline.trimEnd = rational (min b d)
  zoom : s.timeline.zoomWindow.Fits gap (min a d) (min b d)
  zoom_eq : edit.zoom.Fits gap (min a d) (min b d) → s.timeline.zoomWindow = edit.zoom

variable {edit again : Specification Exact} {config : Config Exact} {container : Size Exact}
  {track : Track Exact} {s : Session Exact} {gap d a b : ℚ} {canvas : Size Exact}

/-- **A session that continues an accepted edit shows it**, as far as it can. -/
theorem resume_continues (hedit : edit.Accepted)
    (hgap : config.interaction.timelineTuning.minZoomGap = rational gap)
    (hduration : edit.source.duration = rational d) (hd : 0 ≤ d)
    (htrim : edit.trim = ⟨rational a, rational b⟩) (ha : 0 ≤ a) (hab : a ≤ b)
    (hs : resume edit config container track = .ok s) :
    s.Continues edit gap d a b (container.fit edit.source.frame) := by
  obtain ⟨s₀, hstart, rfl⟩ := resume_eq_ok.mp hs
  obtain ⟨-, settings, background, -, -, rfl⟩ := start_eq_ok.mp hstart
  have hzoom := (hedit.zoom_fits htrim).stop_eq_none
  have hfresh := Timeline.fresh_duration config.interaction.timelineTuning hd track
  have hse : min a d ≤ min b d := min_le_min_right d hab
  -- Restoring clamps the trim to the clip first, and only then the markers to the trim.
  have hrestore := Timeline.restore_eq hfresh hd ha hab hzoom
  constructor
  case source => rfl
  case exportSettings => rfl
  case background => rfl
  case frame => cases edit.crop <;> rfl
  case crop => cases edit.crop <;> rfl
  all_goals
    dsimp only
    rw [htrim, hduration, hrestore]
  case duration => exact hfresh
  case start => rfl
  case stop => rfl
  case zoom => exact Timeline.fits_reclampZoom hgap rfl rfl hse
  case zoom_eq =>
    intro hfits
    exact Timeline.reclampZoom_of_fits (t := Timeline.put _ (min a d) (min b d) edit.zoom)
      hgap rfl rfl hfits

namespace Continues

/-- What the session shows is an edit again if some of the clip is kept. -/
theorem snapshot_eq (hs : s.Continues edit gap d a b canvas) (hedit : edit.Accepted)
    (hduration : edit.source.duration = rational d) (hgap : 1 / 10 ≤ gap) (ha : 0 ≤ a)
    (hab : a < b) (had : a < d) : s.snapshot = .ok s.edit := by
  have hsource : s.source.duration = rational d := by rw [hs.source, hduration]
  refine Session.snapshot_eq (by rw [hs.duration, hsource]) (accepted_edit ?_ hsource ?_ ?_
    hs.start hs.stop ⟨?_, ?_, min_le_right b d⟩ hgap hs.zoom)
  · rw [hs.source]
    exact hedit.source
  · rw [hs.source]
    exact hs.frame
  · rw [hs.background]
    exact hedit.background
  · exact le_min ha (ha.trans had.le)
  · rw [min_eq_left had.le]
    exact lt_min hab had

/-- The session shows an edit only if some of the clip is kept. -/
theorem lt_of_snapshot (hs : s.Continues edit gap d a b canvas)
    (hagain : s.snapshot = .ok again) : a < d := by
  unfold snapshot at hagain
  simp only [bind_eq_ok] at hagain
  obtain ⟨trim, htrim, -⟩ := hagain
  unfold Timeline.trimRange at htrim
  rw [hs.duration, hs.start, hs.stop, TrimRange.ofBounds_eq_ok, TrimRange.isValid_rational] at htrim
  obtain ⟨⟨-, hlt, -⟩, -⟩ := htrim
  -- A start behind the clip would be cut to the end of the clip.
  by_contra hda
  rw [min_eq_right (not_lt.mp hda)] at hlt
  exact absurd (min_le_right b d) (not_le.mpr hlt)

end Continues

/-! ## §4. The edit that is read back. -/

end Session

/-- What is left of `edit` after it was shown on a canvas, and on a timeline with a gap. -/
structure Specification.Reopens (edit : Specification Exact) (canvas : Size Exact) (gap : Exact)
    (again : Specification Exact) : Prop where
  source : again.source = edit.source
  exportSettings : again.exportSettings = edit.exportSettings
  background : again.background = edit.background
  /-- The trim ends with the clip. -/
  trim : again.trim = ⟨edit.trim.start, Scalar.min edit.trim.stop edit.source.duration⟩
  /-- The crop is what the canvas shows of it. -/
  crop : again.crop = edit.crop.bind (·.throughCanvas canvas edit.source.frame)
  cropKept : ∀ r ∈ edit.crop, r.ShowsOn canvas edit.source.frame → again.crop.isSome = true
  /-- Markers that keep the gap in the trim stay, and the others come to keep it. -/
  zoomKept : again.crop.isSome = true → (again.zoom = edit.zoom ↔ edit.zoom.LiesIn gap again.trim)
  zoomFits : again.zoom.LiesIn gap again.trim
  /-- There is nothing to zoom to without a crop. -/
  zoomLost : again.crop = none → again.zoom = .none

namespace Session

variable {edit again : Specification Exact} {s : Session Exact} {gap d a b : ℚ}
  {container : Size Exact}

/-- **What is read back** of an accepted edit that starts inside its clip. -/
theorem Continues.reopens (hedit : edit.Accepted) (hroom : container.hasRoom = true)
    (hs : s.Continues edit gap d a b (container.fit edit.source.frame))
    (hduration : edit.source.duration = rational d) (htrim : edit.trim = ⟨rational a, rational b⟩)
    (hgap : 0 ≤ gap) (had : a < d) :
    edit.Reopens (container.fit edit.source.frame) (rational gap) s.edit := by
  have hpixels := Clip.frame_hasPixels hedit.source
  obtain ⟨h, hh, hfit⟩ := Size.fit_eq hpixels hroom
  have htrim' : s.edit.trim = ⟨rational a, rational (min b d)⟩ := by
    show TrimRange.mk s.timeline.trimStart s.timeline.trimEnd = _
    rw [hs.start, hs.stop, min_eq_left had.le]
  -- The markers lie in the trim that is read back.
  have hfits := hs.zoom
  have heq := hs.zoom_eq
  rw [min_eq_left had.le] at hfits heq
  constructor
  case source => exact hs.source
  case exportSettings => exact hs.exportSettings
  case background => exact hs.background
  case trim => rw [htrim', htrim, hduration, min_rational]
  case crop => exact hs.crop
  case cropKept =>
    intro r hr hshows
    show s.crop.sourceRegion.isSome = true
    have hchecked := hedit.crop
    rw [Option.mem_def.mp hr, Specification.checkCrop_eq_ok] at hchecked
    rw [hs.crop, Option.mem_def.mp hr, Option.bind_some, hfit]
    rw [hfit] at hshows
    exact Region.throughCanvas_isSome hpixels hh hchecked.2.1 hshows
  case zoomKept =>
    intro hcrop
    have hzoom : s.edit.zoom = s.timeline.zoomWindow := if_pos hcrop
    rw [hzoom, htrim']
    constructor
    · intro hsame
      rw [← hsame]
      exact hfits.liesIn hgap
    · intro hlies
      exact heq ((hedit.zoom_fits htrim).of_liesIn hlies)
  case zoomFits =>
    rw [htrim']
    show ZoomWindow.LiesIn (if s.crop.sourceRegion.isSome then _ else _) _ _
    split
    · exact hfits.liesIn hgap
    · exact fun x hx => nomatch hx
  case zoomLost =>
    intro hcrop
    have hnone : s.crop.sourceRegion = none := hcrop
    show (if s.crop.sourceRegion.isSome then _ else _) = _
    rw [hnone]
    rfl

/-- **REOPENING AN EDIT KEEPS WHAT THE SURFACES CAN SHOW.**  An accepted edit can be reopened
exactly if the settings of the configuration are accepted, and the session can be frozen
exactly if the trim starts inside the clip.  Then the clip, the settings and the backdrop
are the same, and so are the trim up to the end of the clip, and markers that keep the gap
of the configuration; and a crop that is shown large enough is there again. -/
theorem reopening_keeps_edit (source : Clip Exact) (trim : TrimRange Exact)
    (crop : Option Region) (zoom : ZoomWindow Exact) (exportSettings : ExportSettings)
    (background : Background Exact) (edit : Specification Exact) (config : Config Exact)
    (container : Size Exact) (track : Track Exact)
    (hedit : Specification.ofParts source trim crop zoom exportSettings background = .ok edit)
    (hcheck : config.check = .ok ()) (hroom : container.hasRoom = true) :
    ((∃ s, resume edit config container track = .ok s) ↔
        (∃ settings,
            (config.exportDefaults.settings : Except (SessionError Exact) _) = .ok settings)
          ∧ ∃ backdrop, config.background.settings = .ok backdrop)
      ∧ ∀ s, resume edit config container track = .ok s →
          ((∃ again, s.snapshot = .ok again) ↔ edit.trim.start < edit.source.duration)
          ∧ ∀ again, s.snapshot = .ok again → edit.Reopens
              (container.fit edit.source.frame) config.interaction.minZoomGap again := by
  have haccepted := Specification.accepted_of_ofParts hedit
  obtain ⟨gap, hgap, htuned, hleast, -⟩ := Config.exists_zoomGap hcheck
  obtain ⟨d, hduration, hd⟩ := Clip.exists_duration haccepted.source
  obtain ⟨a, b, hstart, hstop, ha, hab⟩ := TrimRange.exists_of_isValid haccepted.trim
  have htrim : edit.trim = ⟨rational a, rational b⟩ := by rw [← hstart, ← hstop]
  constructor
  · constructor
    · rintro ⟨s, hs⟩
      obtain ⟨s₀, hs₀, -⟩ := resume_eq_ok.mp hs
      obtain ⟨-, settings, backdrop, hsettings, hbackdrop, -⟩ := start_eq_ok.mp hs₀
      exact ⟨⟨settings, hsettings⟩, backdrop, hbackdrop⟩
    · rintro ⟨⟨settings, hsettings⟩, backdrop, hbackdrop⟩
      exact ⟨_, resume_eq_ok.mpr ⟨_, start_eq_ok.mpr
        ⟨haccepted.source, settings, backdrop, hsettings, hbackdrop, rfl⟩, rfl⟩⟩
  · intro s hs
    -- All that is said of the session is said of any session that continues the edit.
    have hcontinues := resume_continues haccepted htuned hduration hd.le htrim ha hab.le hs
    rw [hstart, hduration, rational_lt]
    refine ⟨⟨fun ⟨again, hagain⟩ => hcontinues.lt_of_snapshot hagain, fun had =>
      ⟨_, hcontinues.snapshot_eq haccepted hduration hleast ha hab had⟩⟩, ?_⟩
    intro again hagain
    have had := hcontinues.lt_of_snapshot hagain
    rw [hcontinues.snapshot_eq haccepted hduration hleast ha hab had] at hagain
    obtain rfl := Except.ok.inj hagain
    rw [hgap]
    exact hcontinues.reopens haccepted hroom hduration htrim (by linarith) had

/-- A crop on a canvas of a third of the video, and markers that are far apart. -/
theorem reopening_keeps_edit_third :
    let source : Clip Exact := ⟨"clip.mp4", 10, 1920, 1080⟩
    let edit : Specification Exact :=
      ⟨source, ⟨1, 9⟩, some ⟨481, 271, 960, 540⟩, ⟨some 3, some 6⟩, .standard, .standard⟩
    let config : Config Exact := {}
    let container : Size Exact := ⟨640, 400⟩
    ∃ s again, resume edit config container ⟨0, 1000⟩ = .ok s ∧ s.snapshot = .ok again
      ∧ edit.Reopens (container.fit source.frame) config.interaction.minZoomGap again
      ∧ again.trim = edit.trim ∧ again.zoom = edit.zoom ∧ again.crop.isSome = true := by
  intro source edit config container
  have hedit : Specification.ofParts source ⟨1, 9⟩ (some ⟨481, 271, 960, 540⟩)
      ⟨some 3, some 6⟩ .standard .standard = .ok edit := by decide +kernel
  have hcheck : config.check = .ok () := by decide +kernel
  obtain ⟨hresume, hread⟩ := reopening_keeps_edit _ _ _ _ _ _ edit config container ⟨0, 1000⟩
    hedit hcheck rfl
  obtain ⟨s, hs⟩ := hresume.mpr
    ⟨⟨.standard, by decide +kernel⟩, .standard, by decide +kernel⟩
  obtain ⟨hsnapshot, hreopens⟩ := hread s hs
  obtain ⟨again, hagain⟩ := hsnapshot.mpr (by decide +kernel)
  have h := hreopens again hagain
  have htrim : again.trim = edit.trim := by
    rw [h.trim]
    decide +kernel
  have hcrop : again.crop.isSome = true := by
    refine h.cropKept _ rfl ⟨by decide, by decide, .inr ?_⟩
    decide +kernel
  refine ⟨s, again, hs, hagain, h, htrim, (h.zoomKept hcrop).mpr ?_, hcrop⟩
  rw [htrim]
  rintro x ⟨rfl⟩
  refine ⟨by decide +kernel, ?_⟩
  rintro y ⟨rfl⟩
  decide +kernel

/-- What is read back from a session as soon as it continues an edit. -/
def reopen? {α : Type} [Scalar α] (edit : Specification α) (config : Config α)
    (container : Size α) (track : Track α) : Option (Specification α) :=
  (resume edit config container track).toOption.bind (·.snapshot.toOption)

/-- **An accepted edit may lose something, or not be reopened at all**, with an accepted
configuration: the settings of new edits are not accepted; a crop of two pixels is shown on
a canvas that is too small; the trim ends in the slack behind the clip, or lies in it; and
the gap of the configuration is wider than the one between the markers. -/
theorem reopening_may_lose :
    let source : Clip Exact := ⟨"clip.mp4", 10, 1920, 1080⟩
    let r : Region := ⟨480, 270, 960, 540⟩
    let edit : Specification Exact :=
      ⟨source, ⟨0, 10⟩, some r, ⟨some 3, some 3.25⟩, .standard, .standard⟩
    let small : Specification Exact := { edit with crop := some ⟨480, 270, 2, 2⟩ }
    let long : Specification Exact := { edit with trim := ⟨1, 10.0000000005⟩ }
    let late : Specification Exact :=
      { edit with trim := ⟨10, 10.0000000005⟩, crop := none, zoom := .none }
    let config : Config Exact := {}
    let fast : Config Exact := { exportDefaults := { fps := 60 } }
    let spaced : Config Exact := { interaction := { minZoomGap := 0.5 } }
    let track : Track Exact := ⟨0, 1000⟩
    (∀ e ∈ [edit, small, long, late],
        Specification.ofParts e.source e.trim e.crop e.zoom e.exportSettings e.background = .ok e)
      ∧ (∀ c ∈ [config, fast, spaced], c.check = .ok ())
      ∧ (resume edit fast ⟨640, 360⟩ track).toOption = none
      ∧ (reopen? small config ⟨320, 180⟩ track).map (·.crop) = some none
      ∧ (reopen? long config ⟨640, 360⟩ track).map (·.trim) = some ⟨1, 10⟩
      ∧ (resume late config ⟨640, 360⟩ track).toOption.isSome = true
      ∧ reopen? late config ⟨640, 360⟩ track = none
      ∧ (reopen? edit spaced ⟨640, 360⟩ track).map (·.zoom) = some ⟨some 2.75, some 3.25⟩ := by
  decide +kernel

end Session
end GifEdit
