/-
  GifEdit.Command.Authoring
  ─────────────────────────
  **MAKING AND EDITING DOCUMENTS.**

  A new document is made from a probed clip and the defaults of a configuration.  A
  script edits an existing one by replaying its steps in a session; nothing is
  written unless the whole script ends in a valid edit.
-/
import GifEdit.Command.Reply
import GifEdit.Editor.Script
import GifEdit.Render.Probe
import GifEdit.Text.Timecode

namespace GifEdit

variable {α : Type} [Scalar α] [Legible α]

/-! ## §1. Paths. -/

/-- Where the document of a clip lies: beside it, under its name without extension. -/
def Path.documentPath (source : Path) : Path :=
  let stem := match source.fileName? with
    | some name => String.ofList (Path.stem name)
    | none => "edit"
  source.withFileName (stem ++ ".togif.json")

/-- The clip's path as a document stores it: the bare name beside the document, and
otherwise the canonical path, or the path as given if it has none. -/
def Path.referenceFrom (source document : Path) (canonical : Option Path) : Path :=
  let directory (p : Path) : Path := p.parent?.getD ⟨""⟩
  match source.fileName? with
  | some name =>
      if (directory source).same (directory document) then ⟨String.ofList name⟩
      else canonical.getD source
  | none => canonical.getD source

/-! ## §2. New documents. -/

/-- What is asked of a new document. -/
structure NewDocument where
  source : Path
  /-- Where it is written, if not beside the source. -/
  output : Option Path := none
  quality : Option String := none
  /-- Turns the backdrop on. -/
  background : Bool := false
  deriving Repr, DecidableEq

/-- Export settings of a configuration, replaced by those of a quality if one is named. -/
def newSettings (config : Config α) (quality : Option String) :
    Except (CommandError α) ExportSettings :=
  match (config.exportDefaults.settings : Except (SessionError α) ExportSettings) with
  | .error cause => .error (.session cause)
  | .ok settings =>
      match quality with
      | none => .ok settings
      | some name => (appliedQuality name).map settings.applyQuality

/-- The backdrop of a configuration, perhaps turned on. -/
def newBackground (config : Config α) (enabled : Bool) :
    Except (CommandError α) (Background α) :=
  match config.background.settings with
  | .error cause => .error (.session cause)
  | .ok b => .ok { b with enabled := b.enabled || enabled }

/-- Where a new document is written. -/
def NewDocument.path (a : NewDocument) : Path := a.output.getD a.source.documentPath

/-- A new document for a probed clip. -/
def NewDocument.make (a : NewDocument) (config : Config α) (clip : Except Failure (Clip α))
    (canonical : Option Path) (now : Timestamp) : Except (CommandError α) (Document α) := do
  let clip ← match clip with
    | .error cause => .error (.probe a.source cause)
    | .ok clip => .ok clip
  let settings ← newSettings config a.quality
  let background ← newBackground config a.background
  match Document.create now (a.source.referenceFrom a.path canonical) clip settings background with
  | .error cause => .error (.create (.edit cause))
  | .ok d => .ok d

/-- What is said of a new document, line by line. -/
def Document.summary (d : Document α) (path : Path) : List String :=
  let source := d.edit.source
  let e := d.edit.exportSettings
  ["Created edit document: " ++ path.text,
    "  Source: " ++ source.name ++ " (" ++ sidesText source.width source.height ++ ")",
    "  Duration: " ++ timeText source.duration,
    "  Export: " ++ e.quality.title ++ " (" ++ toString e.fps ++ "fps, " ++ toString e.width
      ++ "px, " ++ toString e.colors ++ " colors)",
    "  Background: " ++ (if d.edit.background.enabled then "on" else "off")]

/-- Makes a document and saves it. -/
def newDocument (a : NewDocument) (config : Config α) (clip : Except Failure (Clip α))
    (canonical : Option Path) (now : Timestamp) : Reply α :=
  .after (a.make config clip canonical now) fun d =>
    .saveDocument "" a.path d (linesText (d.summary a.path))

/-! ## §3. Scripts. -/

/-- What is asked of a replay. -/
structure ReplayRequest (α : Type) where
  document : Path
  script : Path
  /-- The container the script was recorded in. -/
  container : Size α
  track : Track α
  /-- Where the result is written, if not over the document. -/
  output : Option Path := none
  deriving Repr, DecidableEq

/-- What came of a replay. -/
structure Replayed (α : Type) where
  document : Document α
  steps : Nat
  commits : Nat
  deriving Repr, DecidableEq

namespace ReplayRequest

/-- The steps a script file holds. -/
def loadScript (path : Path) : Except SystemError String → Except (CommandError α) (List (Step α))
  | .error cause => .error (.readScript path cause)
  | .ok text =>
      match Script.ofText text with
      | .ok steps => .ok steps
      | .error problem => .error (.parseScript path problem)

/-- The edit that steps make of another one, with the number of commits. -/
def replayEdit (a : ReplayRequest α) (config : Config α) (edit : Specification α)
    (steps : List (Step α)) : Except (CommandError α) (Specification α × Nat) :=
  match Session.resume edit config a.container a.track with
  | .error cause => .error (.session cause)
  | .ok session =>
      let (session, outcomes) := session.applyAll steps
      match session.snapshot with
      | .error cause => .error (.edit cause)
      | .ok edit => .ok (edit, outcomes.countP fun outcome => outcome.commit.isSome)

/-- Replays a script on a document, both given by what their files hold. -/
def run (a : ReplayRequest α) (config : Config α) (document script : Except SystemError String)
    (now : Timestamp) : Except (CommandError α) (Replayed α) := do
  let d ← loadDocument a.document document
  let steps ← loadScript a.script script
  let (edit, commits) ← a.replayEdit config d.edit steps
  return ⟨d.update now edit, steps.length, commits⟩

/-- Where the result is written. -/
def path (a : ReplayRequest α) : Path := a.output.getD a.document

end ReplayRequest

/-- What is said of a replay, line by line. -/
def Replayed.summary (r : Replayed α) : List String :=
  let e := r.document.edit
  ["Replayed " ++ toString r.steps ++ " steps (" ++ toString r.commits ++ " crop commits)",
    "  Trim: " ++ spanText e.trim.start e.trim.stop,
    "  Crop: " ++ cropText e.crop,
    "  Zoom: in " ++ optionText e.zoom.start ++ ", out " ++ optionText e.zoom.stop]

/-- Replays a script and saves the result. -/
def replayScript (a : ReplayRequest α) (config : Config α)
    (document script : Except SystemError String) (now : Timestamp) : Reply α :=
  .after (a.run config document script now) fun r =>
    .saveDocument (linesText r.summary) a.path r.document (linesText ["Saved: " ++ a.path.text])

end GifEdit
