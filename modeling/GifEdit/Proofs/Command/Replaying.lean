/-
  GifEdit.Proofs.Command.Replaying
  ────────────────────────────────
  **A REPLAY SAVES ALL OF A SCRIPT OR NOTHING.**

  A replay goes through four stages, and the file to be written is only named behind the last:

      loaded    the document is read and decoded
      parsed    every line of the script is a step
      resumed   a session continues the edit
      frozen    what the session shows after all steps is an edit

  What then is saved is the document with one part replaced.  A step leaves the clip and the
  backdrop alone (`act_follows`), and only a preset touches the settings
  (`exportSettings_act`); what a new edit would take from the configuration is not used.

  Main result: `replay_is_all_or_nothing`.
-/
import GifEdit.Command.Authoring
import GifEdit.Proofs.Document
import GifEdit.Proofs.Edit.Settings
import GifEdit.Proofs.Editor.Settling
import GifEdit.Proofs.Files.Places

namespace GifEdit

variable {α : Type} [Scalar α]

/-! ## §1. What steps leave alone. -/

/-- The quality that a step takes settings from. -/
def Step.preset? : Step α → Option Quality
  | .preset quality => some quality
  | _ => none

/-- Settings that were taken from qualities, one after the other. -/
def ExportSettings.applyQualities (e : ExportSettings) (qualities : List Quality) :
    ExportSettings :=
  qualities.foldl applyQuality e

/-- No quality says how often the GIF is played. -/
theorem ExportSettings.loopCount_applyQualities (e : ExportSettings) (qualities : List Quality) :
    (e.applyQualities qualities).loopCount = e.loopCount := by
  induction qualities generalizing e with
  | nil => rfl
  | cons q qualities ih =>
      show ((e.applyQuality q).applyQualities qualities).loopCount = _
      rw [ih, loopCount_applyQuality]

theorem ExportSettings.inRange_applyQualities {e : ExportSettings} (h : e.InRange)
    (qualities : List Quality) : (e.applyQualities qualities).InRange := by
  have hchanges := changeAll_inRange h (qualities.map .quality)
  unfold changeAll at hchanges
  rwa [List.foldl_map] at hchanges

namespace Session

/-- Applying a script is a run of its steps. -/
theorem applyAll_eq_run (s : Session α) (steps : List (Step α)) :
    (s.applyAll steps).1 = s.run (steps.map .step) := by
  induction steps generalizing s with
  | nil => rfl
  | cons step steps ih =>
      show ((s.apply step).1.applyAll steps).1 = _
      rw [ih]
      rfl

/-- **Only a preset changes the settings.** -/
theorem exportSettings_act (s : Session α) (step : Step α) :
    (s.act (.step step)).exportSettings
      = s.exportSettings.applyQualities step.preset?.toList := by
  cases step with
  | markZoomIn =>
      show s.markZoomIn.1.exportSettings = _
      unfold markZoomIn
      dsimp only
      split <;> rfl
  | _ => rfl

/-- **A script applies its presets in order.** -/
theorem exportSettings_applyAll (s : Session α) (steps : List (Step α)) :
    (s.applyAll steps).1.exportSettings
      = s.exportSettings.applyQualities (steps.filterMap Step.preset?) := by
  rw [applyAll_eq_run]
  induction steps generalizing s with
  | nil => rfl
  | cons step steps ih =>
      show ((s.act (.step step)).run (steps.map .step)).exportSettings = _
      rw [ih, exportSettings_act]
      unfold ExportSettings.applyQualities
      rw [← List.foldl_append]
      cases hpreset : step.preset? with
      | none => rw [List.filterMap_cons_none hpreset, Option.toList_none, List.nil_append]
      | some q =>
          rw [List.filterMap_cons_some hpreset, Option.toList_some, List.singleton_append]

/-- **A run keeps the clip and the backdrop.** -/
theorem run_keeps (s : Session α) (actions : List (SessionAction α)) :
    (s.run actions).source = s.source ∧ (s.run actions).crop.source = s.crop.source
      ∧ (s.run actions).background = s.background := by
  induction actions generalizing s with
  | nil => exact ⟨rfl, rfl, rfl⟩
  | cons a actions ih =>
      have hstep := s.act_follows a
      obtain ⟨hsource, hframe, hbackground⟩ := ih (s.act a)
      exact ⟨hsource.trans hstep.source, hframe.trans hstep.frame,
        hbackground.trans hstep.background⟩

end Session

/-- The crop of a frame whose sides are words has its type. -/
theorem Cropper.inWords_sourceRegion {c : Cropper α} (hwidth : c.source.width ≤ Scalar.wordMax)
    (hheight : c.source.height ≤ Scalar.wordMax) : ∀ r ∈ c.sourceRegion, r.InWords := by
  intro r hr
  unfold sourceRegion at hr
  split at hr
  · exact nomatch hr
  · rename_i b _
    dsimp only at hr
    split at hr
    · exact nomatch hr
    · obtain rfl := Option.some.inj hr
      obtain ⟨hright, hbottom⟩ := b.toSource_inside c.canvas c.source
      constructor <;> omega

/-! ## §2. Replies that save. -/

namespace Reply

/-- The file that a reply has written. -/
def file? (r : Reply α) : Option (Saving (CommandError α)) :=
  match r.ending with
  | .saving file _ => some file
  | _ => none

omit [Scalar α] in
/-- A reply that writes a file leaves what writing it leaves. -/
theorem settle_of_file? {r : Reply α} {file : Saving (CommandError α)}
    (h : r.file? = some file) (fs : Files) : (r.settle fs).2 = file.store fs := by
  unfold file? at h
  unfold settle
  split at h
  · rename_i written afterwards hending
    obtain rfl := Option.some.inj h
    rw [hending]
    dsimp only
    cases written.store fs <;> rfl
  · exact nomatch h

end Reply

/-! ## §3. The stages of a replay. -/

variable [Legible α]

/-- A document file and what it holds. -/
theorem Document.load_eq_ok {path : Path} {file : Except SystemError String} {d : Document α} :
    load path file = .ok d ↔ ∃ text, file = .ok text ∧ Json.decodeDocument decode text = .ok d := by
  unfold load
  cases file with
  | error cause => exact ⟨nofun, nofun⟩
  | ok text =>
      cases hread : (Json.decodeDocument decode text : Except Json.Problem (Document α)) with
      | error problem => simp [hread]
      | ok d => simp [hread]

namespace ReplayRequest

/-- All stages of a replay in a tree of files. -/
structure Plays (a : ReplayRequest α) (config : Config α) (fs : Files) (d : Document α)
    (steps : List (Step α)) (s : Session α) (edit : Specification α) : Prop where
  loaded : Document.load a.document (fs.readText a.document) = .ok d
  parsed : ∃ text, fs.readText a.script = .ok text ∧ Script.ofText text = .ok steps
  resumed : Session.resume d.edit config a.container a.track = .ok s
  frozen : (s.applyAll steps).1.snapshot = .ok edit

omit [Legible α] in
/-- A script file and what it holds. -/
theorem loadScript_eq_ok {path : Path} {file : Except SystemError String}
    {steps : List (Step α)} :
    loadScript path file = .ok steps
      ↔ ∃ text, file = .ok text ∧ Script.ofText text = .ok steps := by
  unfold loadScript
  cases file with
  | error cause => exact ⟨nofun, nofun⟩
  | ok text =>
      cases hread : (Script.ofText text : Except Json.Problem (List (Step α))) with
      | error problem => simp [hread]
      | ok steps => simp [hread]

omit [Legible α] in
/-- A session that continues an edit, and what it shows in the end. -/
theorem replayEdit_eq_ok {a : ReplayRequest α} {config : Config α} {before : Specification α}
    {steps : List (Step α)} {edit : Specification α} {commits : Nat} :
    a.replayEdit config before steps = .ok (edit, commits)
      ↔ ∃ s, Session.resume before config a.container a.track = .ok s
        ∧ (s.applyAll steps).1.snapshot = .ok edit
        ∧ ((s.applyAll steps).2.countP fun outcome => outcome.commit.isSome) = commits := by
  unfold replayEdit
  cases Session.resume before config a.container a.track with
  | error cause => simp
  | ok s =>
      dsimp only
      cases hfrozen : (s.applyAll steps).1.snapshot with
      | error cause => simp [hfrozen]
      | ok edit => simp [hfrozen]

variable {a : ReplayRequest α} {config : Config α} {fs : Files} {d : Document α}
  {steps : List (Step α)} {s : Session α} {edit : Specification α}

/-- **A replay gets through if all of its stages do**… -/
theorem Plays.run_eq (h : a.Plays config fs d steps s edit) (now : Timestamp) :
    a.run config (fs.readText a.document) (fs.readText a.script) now
      = .ok ⟨d.update now edit, steps.length,
        (s.applyAll steps).2.countP fun outcome => outcome.commit.isSome⟩ := by
  unfold run loadDocument
  simp only [bind_eq_ok, mapError_eq_ok, loadScript_eq_ok]
  exact ⟨d, h.loaded, steps, h.parsed, _, replayEdit_eq_ok.mpr ⟨s, h.resumed, h.frozen, rfl⟩, rfl⟩

/-- … and only then. -/
theorem exists_plays {now : Timestamp} {r : Replayed α}
    (h : a.run config (fs.readText a.document) (fs.readText a.script) now = .ok r) :
    ∃ d steps s edit, a.Plays config fs d steps s edit := by
  unfold run loadDocument at h
  simp only [bind_eq_ok, mapError_eq_ok, loadScript_eq_ok] at h
  obtain ⟨d, hloaded, steps, hparsed, ⟨edit, commits⟩, hplayed, -⟩ := h
  obtain ⟨s, hresumed, hfrozen, -⟩ := replayEdit_eq_ok.mp hplayed
  exact ⟨d, steps, s, edit, hloaded, hparsed, hresumed, hfrozen⟩

end ReplayRequest

/-! ## §4. The saved document. -/

/-- `saved` is `loaded` with another edit of the same clip, whose settings are the old ones
with the presets of a script applied to them. -/
structure Document.KeptBy (loaded : Document α) (steps : List (Step α)) (saved : Document α) :
    Prop where
  version : saved.version = loaded.version
  createdAt : saved.createdAt = loaded.createdAt
  sourcePath : saved.sourcePath = loaded.sourcePath
  source : saved.edit.source = loaded.edit.source
  background : saved.edit.background = loaded.edit.background
  exportSettings : saved.edit.exportSettings
    = loaded.edit.exportSettings.applyQualities (steps.filterMap Step.preset?)
  loopCount : saved.edit.exportSettings.loopCount = loaded.edit.exportSettings.loopCount

/-- The timestamps and the numbers of a document are read back from their own texts. -/
structure Document.PartsReadBack (d : Document α) : Prop where
  createdAt : d.createdAt.ReadsBack
  modifiedAt : d.modifiedAt.ReadsBack
  numbers : ∀ x ∈ d.edit.numbers, Scalar.isFinite x = true → Json.ReadsBack x

namespace ReplayRequest.Plays

variable {a : ReplayRequest α} {config : Config α} {fs : Files} {d : Document α}
  {steps : List (Step α)} {s : Session α} {edit : Specification α}

/-- The edit of a replay is what the session shows after all steps. -/
theorem edit_eq (h : a.Plays config fs d steps s edit) :
    edit = (s.run (steps.map .step)).edit ∧ edit.Accepted := by
  have hfrozen := h.frozen
  rw [Session.applyAll_eq_run] at hfrozen
  exact Session.edit_of_snapshot hfrozen

/-- **What a replay keeps of a document.** -/
theorem keptBy (h : a.Plays config fs d steps s edit) (now : Timestamp) :
    d.KeptBy steps (d.update now edit) := by
  obtain ⟨-, rfl⟩ := Session.resume_eq_ok_iff.mp h.resumed
  obtain ⟨rfl, -⟩ := h.edit_eq
  obtain ⟨hsource, -, hbackground⟩ := Session.run_keeps
    (Session.continued d.edit config a.container a.track) (steps.map .step)
  have hsettings := Session.exportSettings_applyAll
    (Session.continued d.edit config a.container a.track) steps
  rw [Session.applyAll_eq_run] at hsettings
  refine ⟨rfl, rfl, rfl, hsource, hbackground, hsettings, ?_⟩
  exact (congrArg ExportSettings.loopCount hsettings).trans
    (ExportSettings.loopCount_applyQualities _ _)

/-- **The saved edit has its types**, as the loaded one has. -/
theorem typed (h : a.Plays config fs d steps s edit) : edit.Typed := by
  obtain ⟨text, -, hread⟩ := Document.load_eq_ok.mp h.loaded
  obtain ⟨v, -, hdecode⟩ := Json.decodeDocument_eq_ok.mp hread
  obtain ⟨w, hedit⟩ := Document.edit_of_decode hdecode
  obtain ⟨-, htyped⟩ := Specification.accepted_of_decode hedit
  have hkept := h.keptBy d.modifiedAt
  have hsource : edit.source = d.edit.source := hkept.source
  have hsettings := ExportSettings.inRange_applyQualities htyped.exportSettings
    (steps.filterMap Step.preset?)
  rw [← hkept.exportSettings] at hsettings
  have hbackground : edit.background = d.edit.background := hkept.background
  have hcrop : ∀ r ∈ edit.crop, r.InWords := by
    obtain ⟨-, rfl⟩ := Session.resume_eq_ok_iff.mp h.resumed
    obtain ⟨rfl, -⟩ := h.edit_eq
    obtain ⟨-, hframe, -⟩ := Session.run_keeps
      (Session.continued d.edit config a.container a.track) (steps.map .step)
    rw [Session.continued_frame] at hframe
    refine Cropper.inWords_sourceRegion ?_ ?_
    · rw [hframe]
      exact htyped.width
    · rw [hframe]
      exact htyped.height
  exact ⟨hsource ▸ htyped.width, hsource ▸ htyped.height, hcrop, hsettings,
    hbackground ▸ htyped.color, hbackground ▸ htyped.borderRadius⟩

/-- **The text of the saved document is read as that document**, if its parts are. -/
theorem reads [LawfulScalar α] (h : a.Plays config fs d steps s edit) (now : Timestamp)
    (hparts : (d.update now edit).PartsReadBack) :
    Json.decodeDocument Document.decode (d.update now edit).text = .ok (d.update now edit) := by
  obtain ⟨-, haccepted⟩ := h.edit_eq
  have hfinite := (haccepted.valid h.typed).isFinite
  have hedit := Specification.carries haccepted h.typed
    fun x hx => hparts.numbers x hx (hfinite x hx)
  exact (Document.carries hedit hparts.createdAt hparts.modifiedAt).indentedText

end ReplayRequest.Plays

/-- **A REPLAY SAVES ALL OF A SCRIPT OR NOTHING.**  Unless the document is loaded, the script
parsed, a session resumed and frozen again after all steps, a replay fails and writes no file.
Otherwise it writes one document, which keeps the version, the time of creation, the path and
the data of the clip, and the backdrop; its settings are the loaded ones after the presets of
the script.  Once written, the file holds the text of that document, and is loaded as it if the
numbers and timestamps of it read back.  Every path that leads to another place reads what it
read before, the one of the loaded document among them; one that only spells the place of the
output differently reads the new file.

Places are those of a tree in which the root and the working directory never meet.  Where the
working directory is `/work`, the paths `edit.json` and `/work/edit.json` count as two places
here, although they are one file on a disk; two files on a disk are two places here as well, so
every other file is kept. -/
theorem replay_is_all_or_nothing [LawfulScalar α] (a : ReplayRequest α) (config : Config α)
    (fs : Files) (now : Timestamp) :
    let reply := replayScript a config (fs.readText a.document) (fs.readText a.script) now
    ((¬∃ d steps s edit, a.Plays config fs d steps s edit) →
        reply.file? = none ∧ ∃ cause, reply = .fail cause)
      ∧ ∀ d steps s edit, a.Plays config fs d steps s edit →
        ∃ saved, reply.file? = some ((saved.saving a.path).mapError .save)
          ∧ saved.edit = edit ∧ saved.modifiedAt = now ∧ d.KeptBy steps saved
          ∧ ∀ fs', (reply.settle fs).2 = .ok fs' →
            fs'.readText a.path = .ok saved.text
              ∧ (saved.PartsReadBack → Document.load a.path (fs'.readText a.path) = .ok saved)
              ∧ (a.document.place ≠ a.path.place →
                  fs'.readText a.document = fs.readText a.document)
              ∧ ∀ p old, fs.readText p = .ok old →
                  fs'.readText p = .ok (if p.place = a.path.place then saved.text else old) := by
  intro reply
  constructor
  · -- A run that gives a reply has played, so what did not play has failed.
    intro hfails
    have hfailed : ∃ cause, reply = .fail cause := by
      cases hrun : a.run config (fs.readText a.document) (fs.readText a.script) now with
      | error cause =>
          refine ⟨cause, ?_⟩
          show Reply.after (a.run config _ _ now) _ = _
          rw [hrun]
          rfl
      | ok r => exact absurd (ReplayRequest.exists_plays hrun) hfails
    obtain ⟨cause, hcause⟩ := hfailed
    rw [hcause]
    exact ⟨rfl, cause, rfl⟩
  · intro d steps s edit hplays
    let saved := d.update now edit
    have hrun := hplays.run_eq now
    have hfile : reply.file? = some ((saved.saving a.path).mapError .save) := by
      show (Reply.after (a.run config _ _ now) _).file? = _
      rw [hrun]
      rfl
    refine ⟨saved, hfile, rfl, rfl, hplays.keptBy now, fun fs' hsettle => ?_⟩
    -- Settling the reply is storing this one file: all else is what a stored file leaves.
    have hstore := (Reply.settle_of_file? hfile fs).symm.trans hsettle
    have hsaved : fs'.readText a.path = .ok saved.text := Files.readText_of_store hstore
    have hafter (p : Path) (old : String) (hread : fs.readText p = .ok old) :
        fs'.readText p = .ok (if p.place = a.path.place then saved.text else old) :=
      Files.readText_after_store hread hstore
    refine ⟨hsaved, fun hparts => ?_, fun hplace => ?_, hafter⟩
    · exact Document.load_eq_ok.mpr ⟨_, hsaved, hplays.reads now hparts⟩
    · obtain ⟨text, htext, -⟩ := Document.load_eq_ok.mp hplays.loaded
      rw [hafter a.document text htext, if_neg hplace, htext]

/-- A script with a crop between two presets, replayed into a directory that is made for it.
The settings were set by hand to be played once, which is all that is left of them. -/
theorem replay_is_all_or_nothing_presets :
    let document : String := "\x7b\"version\":\"0.9\",\"created_at\":\"2025-01-01T00:00:00Z\","
      ++ "\"modified_at\":\"2025-01-01T01:00:00Z\",\"source_path\":\"clip.mp4\","
      ++ "\"edit\":[[\"clip.mp4\",10.0,1920,1080],[0.5,9.0],null,[null,null],"
      ++ "[20,700,64,2,-1,\"custom\"]]\x7d"
    let script : String := "[\"preset\",\"high\"]\n[\"seek\",3.0]\n# a crop\n"
      ++ "[\"canvas\",\"down\",100,100]\n[\"canvas\",\"move\",300,250]\n"
      ++ "[\"canvas\",\"up\",300,250]\n[\"preset\",\"low\"]\n"
    let scripted : Files :=
      Files.put {} (Place.working.child "steps.txt".toList) (.file script.toUTF8.toList)
    let fs : Files :=
      scripted.put (Place.working.child "edit.json".toList) (.file document.toUTF8.toList)
    let a : ReplayRequest Float :=
      { document := ⟨"edit.json"⟩, script := ⟨"./steps.txt"⟩, container := ⟨960, 540⟩,
        track := ⟨0, 1000⟩, output := some ⟨"new/edit.json"⟩ }
    let config : Config Float := {}
    let now : Timestamp := ⟨1735693261, 250000000⟩
    let reply := replayScript a config (fs.readText a.document) (fs.readText a.script) now
    ∃ saved : Document Float, saved.version = "0.9"
      ∧ saved.edit.crop = some ⟨200, 200, 400, 224⟩
      ∧ saved.edit.exportSettings = ⟨10, 480, 64, 3, ⟨-1⟩, .low⟩
      ∧ ∃ fs', (reply.settle fs).2 = .ok fs'
        ∧ Document.load a.path (fs'.readText a.path) = .ok saved
        ∧ fs'.readText a.document = .ok document := by
  intro document script scripted fs a config now reply
  let d : Document Float :=
    { version := "0.9", createdAt := ⟨1735689600, 0⟩, modifiedAt := ⟨1735693200, 0⟩
      sourcePath := ⟨"clip.mp4"⟩
      edit := { source := ⟨"clip.mp4", 10.0, 1920, 1080⟩, trim := ⟨0.5, 9.0⟩, crop := none
                zoom := .none, exportSettings := ⟨20, 700, 64, 2, ⟨-1⟩, .custom⟩
                background := .standard } }
  let steps : List (Step Float) := [.preset .high, .seek 3.0, .canvas .down 100.0 100.0,
    .canvas .move 300.0 250.0, .canvas .up 300.0 250.0, .preset .low]
  let edit : Specification Float := { d.edit with
    crop := some ⟨200, 200, 400, 224⟩
    zoom := ⟨some 3.0, none⟩
    exportSettings := ⟨10, 480, 64, 3, ⟨-1⟩, .low⟩ }
  have hdocument : fs.readText a.document = .ok document :=
    Files.readText_of_read (Files.read_put_self (by decide +kernel) (by decide +kernel) _)
  have hscript : fs.readText a.script = .ok script :=
    Files.readText_of_read (Files.read_put_of_ne _ (by decide +kernel) (by decide +kernel)
      (Files.read_put_self (by decide +kernel) (by decide +kernel) _))
  have hdecoded : Json.decodeDocument Document.decode document = .ok d := by decide +kernel
  have hparsed : Script.ofText script = .ok steps := by decide +kernel
  have hstarts : Session.Starts d.edit.source config :=
    ⟨by decide +kernel, isOk_iff.mp (by decide +kernel), isOk_iff.mp (by decide +kernel)⟩
  have hresumed : Session.resume d.edit config a.container a.track
      = .ok (Session.continued d.edit config a.container a.track) :=
    Session.resume_eq_ok_iff.mpr ⟨hstarts, rfl⟩
  have hfrozen : ((Session.continued d.edit config a.container a.track).applyAll steps).1.snapshot
      = .ok edit := by decide +kernel
  have hplays : a.Plays config fs d steps (Session.continued d.edit config a.container a.track)
      edit :=
    ⟨Document.load_eq_ok.mpr ⟨document, hdocument, hdecoded⟩, ⟨script, hscript, hparsed⟩,
      hresumed, hfrozen⟩
  obtain ⟨saved, hfile, hedit, hmodified, hkept, hafter⟩ :=
    (replay_is_all_or_nothing a config fs now).2 d steps _ edit hplays
  obtain rfl : saved = d.update now edit := by
    show Document.mk saved.version saved.createdAt saved.modifiedAt saved.sourcePath saved.edit = _
    rw [hkept.version, hkept.createdAt, hkept.sourcePath, hmodified, hedit]
    rfl
  let file := ((d.update now edit).saving a.path).mapError CommandError.save
  have hwritten : (file.store fs).isOk = true := by decide +kernel
  obtain ⟨fs', hstored⟩ := isOk_iff.mp hwritten
  have hsettle := (Reply.settle_of_file? hfile fs).trans hstored
  obtain ⟨-, hloads, hkeeps, -⟩ := hafter fs' hsettle
  have hnumbers : ∀ x ∈ edit.numbers, Json.ReadsBack x := by decide +kernel
  have hparts : (d.update now edit).PartsReadBack :=
    ⟨by decide +kernel, by decide +kernel, fun x hx _ => hnumbers x hx⟩
  refine ⟨d.update now edit, rfl, rfl, rfl, fs', hsettle, hloads hparts, ?_⟩
  rw [hkeeps (by decide +kernel), hdocument]

end GifEdit
