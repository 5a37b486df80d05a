/-
  GifEdit.Command.Rendering
  ─────────────────────────
  **RENDERING MASKS AND DOCUMENTS.**

  One command draws a mask into a file, the other exports a document.  An export is
  told in the order in which it happens: the source, the settings, the output, one
  progress text a report, and the size of the result.
-/
import GifEdit.Command.Listing
import GifEdit.Render.Export

namespace GifEdit

variable {α : Type} [Scalar α] [Legible α]

/-! ## §1. Masks. -/

/-- Draws a mask and saves it. -/
def drawMask [SquareRoot α] (m : MaskShape) (output : Path) : Reply α :=
  match m.png α with
  | .error cause => .fail (.mask cause)
  | .ok bytes =>
      let file : Saving (CommandError α) :=
        { path := output
          content := bytes
          refused := fun _ cause => .mask (.image
            ("Failed to write mask " ++ output.text ++ ": " ++ cause.message)) }
      ⟨"", .saving file (linesText
        ["Wrote " ++ sidesText m.width m.height ++ " mask (radius " ++ toString m.radius
          ++ "px) to " ++ output.text])⟩

/-! ## §2. Exports. -/

/-- What is asked of an export. -/
structure ExportRequest where
  document : Path
  /-- Where the GIF is written, if not beside the source. -/
  output : Option Path := none
  quality : Option String := none
  deriving Repr, DecidableEq

/-- How the surroundings answer an export. -/
structure ExportAnswers (α : Type) where
  scene : ExportScene
  /-- What came of asking the encoder for its version. -/
  version : Except SystemError ProgramRun
  encoder : EncoderAnswers α

/-- The edit with the settings of a quality, if one is named. -/
def Specification.withQuality (edit : Specification α) :
    Option String → Except (CommandError α) (Specification α)
  | none => .ok edit
  | some name => do
      let quality ← appliedQuality name
      let settings := edit.exportSettings.applyQuality quality
      match Specification.ofParts edit.source edit.trim edit.crop edit.zoom settings
          edit.background with
      | .ok edit => .ok edit
      | .error cause => .error (.edit cause)

/-- The job for an edit of a source. -/
def ExportRequest.job (a : ExportRequest) (source : Path) (edit : Specification α)
    (engine : Engine) : ExportJob α :=
  let job := ExportJob.besideSource source edit engine
  match a.output with
  | some output => { job with output := output }
  | none => job

/-- What is said of a job before it starts, line by line. -/
def ExportJob.summary (job : ExportJob α) : List String :=
  let e := job.edit
  ["  Trim: " ++ spanText e.trim.start e.trim.stop,
    "  Settings: " ++ e.exportSettings.quality.title ++ " (" ++ e.exportSettings.listing "" ++ ")",
    "  Output: " ++ job.output.text]

/-- What is said of a report; it stays on one line of the screen. -/
def ExportProgress.text (p : ExportProgress α) : String :=
  match p.stage with
  | .rendering | .finalizing =>
      "\r  Progress: " ++ fixedText 1 (p.progress * 100) ++ "% (" ++ toString p.framesRendered
        ++ "/" ++ toString p.totalFrames ++ " frames, ETA: " ++ fixedText 0 p.eta ++ "s)  "
  | _ => ""

/-- The job for the document a file holds, and what is said before it is known to be one. -/
def ExportRequest.prepare (a : ExportRequest) (config : Config α)
    (file : Except SystemError String) : String × Except (CommandError α) (ExportJob α) :=
  match loadDocument a.document file with
  | .error cause => ("", .error cause)
  | .ok d =>
      let source := d.resolveSource a.document
      (linesText ["Exporting: " ++ source.text],
        (d.edit.withQuality a.quality).map fun edit => a.job source edit config.engine)

/-- What is said of an export that has come to its end. -/
def ExportOutcome.reply (o : ExportOutcome α) (told : String) : Reply α :=
  let told := told ++ String.join (o.reports.map ExportProgress.text)
  match o.result with
  | .error cause => .fail (.render cause) told
  | .ok output =>
      let size := (o.target.map String.utf8ByteSize).getD 0
      .say (told ++ linesText ["", "Export complete: " ++ output.text ++ " ("
        ++ toString (size / 1024) ++ " KiB)"])

/-- Exports the document a file holds. -/
def exportDocument (a : ExportRequest) (config : Config α) (file : Except SystemError String)
    (answers : ExportJob α → ExportAnswers α) : Reply α :=
  match a.prepare config file with
  | (told, .error cause) => .fail cause told
  | (told, .ok job) =>
      let found := answers job
      (exportJob job found.scene found.version found.encoder).reply
        (told ++ linesText job.summary)

end GifEdit
