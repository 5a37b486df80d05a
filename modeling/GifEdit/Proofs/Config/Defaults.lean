/-
  GifEdit.Proofs.Config.Defaults
  ──────────────────────────────
  **WHAT A LOADED CONFIGURATION IS GOOD FOR.**

  Loading checks the tuning of the surfaces and the padding of the backdrop.  The defaults of
  new edits are kept as they were written and are checked when a session needs them:

      export     the spans of the settings, and the loop counts on offer
      color      `#` and six hexadecimal digits
      padding    has been checked already, by the same bounds

  So a configuration that loads starts sessions for every clip that can be edited, or for
  none, and its text decides which (`loaded_config_starts_iff`).  With a frame rate of 60, or
  a color by its name, it starts none (`loaded_config_may_start_nothing`).
-/
import GifEdit.Config.Codec
import GifEdit.Proofs.Edit.Colors
import GifEdit.Proofs.Editor.Settling

namespace GifEdit

/-! ## §1. Defaults that can be used. -/

/-- Defaults that settings can be made of. -/
structure ExportDefaults.InRange (d : ExportDefaults) : Prop where
  fps : fpsSpan.Has d.fps
  width : widthSpan.Has d.width
  colors : colorsSpan.Has d.colors
  dither : ditherSpan.Has d.dither
  loopCount : d.loopCount ∈ LoopCount.allowed

variable {α : Type} [Scalar α]

omit [Scalar α] in
theorem ExportDefaults.settings_isOk_iff {d : ExportDefaults} :
    (∃ e, (d.settings : Except (SessionError α) ExportSettings) = .ok e) ↔ d.InRange := by
  have hmade : (∃ e, (do
      let loopCount ← LoopCount.ofInt d.loopCount
      ExportSettings.ofValues d.fps d.width d.colors d.dither loopCount :
        Except (EditError α) ExportSettings) = .ok e) ↔ d.InRange := by
    simp only [bind_eq_ok, LoopCount.ofInt_eq_ok, ExportSettings.ofValues_eq_ok]
    constructor
    · rintro ⟨e, l, ⟨hloop, -⟩, hfps, hwidth, hcolors, hdither, -⟩
      exact ⟨hfps, hwidth, hcolors, hdither, hloop⟩
    · rintro ⟨hfps, hwidth, hcolors, hdither, hloop⟩
      exact ⟨_, _, ⟨hloop, rfl⟩, hfps, hwidth, hcolors, hdither, rfl⟩
  -- Whichever label they get, settings that were made are there.
  rw [← hmade]
  unfold settings
  dsimp only
  split
  · rename_i cause hcause
    simp [hcause]
  · rename_i e he
    simp only [he, Except.ok.injEq, exists_eq', iff_true]
    split_ifs <;> exact ⟨_, rfl⟩

/-- The padding that makes a backdrop is the padding that is loaded. -/
theorem BackgroundDefaults.settings_isOk_iff {b : BackgroundDefaults α}
    (hpadding : Background.isPadding b.padding = true) :
    (∃ g, b.settings = .ok g) ↔ Color.IsColorText b.color.toList := by
  rw [← Color.ofText_isOk_iff (α := α)]
  unfold settings
  cases Color.ofText b.color with
  | error cause => simp
  | ok color =>
      have hcheck : (Background.mk b.enabled color b.padding b.borderRadius).check = .ok () :=
        if_pos hpadding
      simp [hcheck]

/-- Loading checks the padding by the bounds of a backdrop. -/
theorem Config.isPadding_of_check {c : Config α} (h : c.check = .ok ()) :
    Background.isPadding c.background.padding = true := by
  unfold check at h
  dsimp only at h
  split_ifs at h with _ _ _ hpadding
  simpa [Background.isPadding] using hpadding

theorem Config.check_of_load [Legible α] {file : Except SystemError String} {c : Config α}
    (h : load file = .ok c) : c.check = .ok () := by
  unfold load ofText at h
  split at h
  · exact nomatch h
  · split at h
    · exact nomatch h
    · split at h
      · exact nomatch h
      · rename_i hcheck
        obtain rfl := Except.ok.inj h
        exact hcheck

/-! ## §2. Sessions. -/

theorem Session.start_isOk_iff {source : Clip α} {config : Config α} {container : Size α}
    {track : Track α} :
    (∃ s, start source config container track = .ok s) ↔ Starts source config := by
  constructor
  · rintro ⟨s, hs⟩
    obtain ⟨hsource, settings, backdrop, hsettings, hbackdrop, -⟩ := start_eq_ok.mp hs
    exact ⟨hsource, ⟨settings, hsettings⟩, backdrop, hbackdrop⟩
  · rintro ⟨hsource, ⟨settings, hsettings⟩, backdrop, hbackdrop⟩
    exact ⟨_, start_eq_ok.mpr ⟨hsource, settings, backdrop, hsettings, hbackdrop, rfl⟩⟩

/-- **A LOADED CONFIGURATION STARTS SESSIONS EXACTLY IF ITS DEFAULTS CAN BE USED.**  Settings
are made of its export defaults exactly if each lies in its span and the loop count is on
offer, and a backdrop exactly if the color is written as one; the padding needs no further
check.  With both, a session starts on every clip that can be edited, and continues every
edit that was accepted, in whatever container and on whatever track; without one of them no
session starts or continues at all. -/
theorem Config.loaded_config_starts_iff [Legible α] (file : Except SystemError String)
    (config : Config α) (hload : load file = .ok config) :
    let usable := config.exportDefaults.InRange
      ∧ Color.IsColorText config.background.color.toList
    ((∃ settings, (config.exportDefaults.settings : Except (SessionError α) ExportSettings)
        = .ok settings) ↔ config.exportDefaults.InRange)
      ∧ ((∃ backdrop, config.background.settings = .ok backdrop)
        ↔ Color.IsColorText config.background.color.toList)
      ∧ (∀ (source : Clip α) (container : Size α) (track : Track α), source.check = .ok () →
        ((∃ s, Session.start source config container track = .ok s) ↔ usable))
      ∧ ∀ (source : Clip α) (trim : TrimRange α) (crop : Option Region) (zoom : ZoomWindow α)
          (settings : ExportSettings) (backdrop : Background α) (edit : Specification α)
          (container : Size α) (track : Track α),
          Specification.ofParts source trim crop zoom settings backdrop = .ok edit →
          ((∃ s, Session.resume edit config container track = .ok s) ↔ usable) := by
  intro usable
  have hpadding := isPadding_of_check (check_of_load hload)
  have hsettings := config.exportDefaults.settings_isOk_iff (α := α)
  have hbackdrop := BackgroundDefaults.settings_isOk_iff hpadding
  -- Both ways to open a session ask the same of the configuration.
  have hstarts {source : Clip α} (hsource : source.check = .ok ()) :
      Session.Starts source config ↔ usable := by
    unfold Session.Starts
    rw [hsettings, hbackdrop]
    exact ⟨fun h => h.2, fun h => ⟨hsource, h⟩⟩
  refine ⟨hsettings, hbackdrop, fun source container track hsource => ?_, ?_⟩
  · rw [Session.start_isOk_iff, hstarts hsource]
  · intro source trim crop zoom settings backdrop edit container track hedit
    have haccepted := Specification.accepted_of_ofParts hedit
    rw [← hstarts haccepted.source]
    constructor
    · rintro ⟨s, hs⟩
      exact (Session.resume_eq_ok_iff.mp hs).1
    · intro h
      exact ⟨_, Session.resume_eq_ok_iff.mpr ⟨h, rfl⟩⟩

/-- Defaults at the ends of their spans, and a color in both cases. -/
theorem Config.loaded_config_starts_iff_ends :
    let text := "\x7b\"export\":\x7b\"fps\":30,\"width\":320,\"dither\":0,\"loop_count\":-1\x7d,"
      ++ "\"background\":\x7b\"color\":\"#00fFa9\",\"padding\":0.5\x7d\x7d"
    let source : Clip Float := ⟨"clip.mp4", 10.0, 1920, 1080⟩
    let edit : Specification Float :=
      ⟨source, ⟨1.0, 9.0⟩, some ⟨480, 270, 960, 540⟩, ⟨some 3.0, none⟩, .standard, .standard⟩
    ∃ config : Config Float, load (.ok text) = .ok config
      ∧ (∃ s, Session.start source config ⟨640.0, 360.0⟩ ⟨0.0, 1000.0⟩ = .ok s)
      ∧ ∃ s, Session.resume edit config ⟨640.0, 360.0⟩ ⟨0.0, 1000.0⟩ = .ok s := by
  intro text source edit
  let config : Config Float :=
    { exportDefaults := { fps := 30, width := 320, dither := 0, loopCount := -1 }
      background := { color := "#00fFa9", padding := 0.5 } }
  have hload : load (.ok text) = .ok config := by decide +kernel
  have hrange : config.exportDefaults.InRange :=
    ⟨⟨by decide, by decide⟩, ⟨by decide, by decide⟩, ⟨by decide, by decide⟩,
      ⟨by decide, by decide⟩, by decide⟩
  have hdigits : "00fFa9".toList.all (fun c => decide (Color.IsHexDigit c)) = true := by decide
  have hcolor : Color.IsColorText config.background.color.toList :=
    ⟨"00fFa9".toList, by decide, by decide, by simpa using hdigits⟩
  have hsource : source.check = .ok () := by decide +kernel
  have hedit : Specification.ofParts source ⟨1.0, 9.0⟩ (some ⟨480, 270, 960, 540⟩) ⟨some 3.0, none⟩
      .standard .standard = .ok edit := by decide +kernel
  obtain ⟨-, -, hstart, hresume⟩ := loaded_config_starts_iff (.ok text) config hload
  exact ⟨config, hload, (hstart source _ _ hsource).mpr ⟨hrange, hcolor⟩,
    (hresume _ _ _ _ _ _ edit _ _ hedit).mpr ⟨hrange, hcolor⟩⟩

/-- **Configurations that start nothing**: each of the two loads, one has a frame rate that is
too high and one a color by its name, and no session starts with either. -/
theorem Config.loaded_config_may_start_nothing :
    let source : Clip Float := ⟨"clip.mp4", 10.0, 1920, 1080⟩
    source.check = .ok ()
      ∧ (∃ config : Config Float, load (.ok "\x7b\"export\":\x7b\"fps\":60\x7d\x7d") = .ok config
        ∧ config.exportDefaults.settings = .error (.edit (.outOfRange "fps" 60 5 30) :
          SessionError Float)
        ∧ Session.start source config ⟨640.0, 360.0⟩ ⟨0.0, 1000.0⟩
          = .error (.edit (.outOfRange "fps" 60 5 30)))
      ∧ ∃ config : Config Float,
        load (.ok "\x7b\"background\":\x7b\"color\":\"red\"\x7d\x7d") = .ok config
        ∧ config.background.settings = .error (.config (.invalidColor "red"))
        ∧ Session.start source config ⟨640.0, 360.0⟩ ⟨0.0, 1000.0⟩
          = .error (.config (.invalidColor "red")) := by
  intro source
  exact ⟨by decide +kernel, ⟨{ exportDefaults := { fps := 60 } }, by decide +kernel⟩,
    { background := { color := "red" } }, by decide +kernel⟩

end GifEdit
