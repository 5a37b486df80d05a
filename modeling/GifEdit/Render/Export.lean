/-
  GifEdit.Render.Export
  ─────────────────────
  **EXPORTING AN EDIT.**

  An export looks for the source, makes the directory of the output, asks whether the
  backend is available and has it render the job.  Failures before the render began
  send no report of their own; a render that fails is closed by the report `failed`.

  A backend answers, or it fails with a reason.  One that panics is not modelled, and so
  neither is the failure `Export task panicked: …` that an export makes of it: that answer
  has no report `failed` before it.
-/
import GifEdit.Render.Encoder

namespace GifEdit

variable {α : Type}

/-! ## §1. What an export meets and leaves. -/

/-- What an export finds. -/
structure ExportScene where
  sourceExists : Bool
  /-- Why the directory of the output cannot be made. -/
  directory : Option SystemError := none
  /-- What the output holds before. -/
  target : Option String := none
  deriving Repr, DecidableEq, Inhabited

/-- What came of an export. -/
structure ExportOutcome (α : Type) where
  result : Except Failure Path
  reports : List (ExportProgress α)
  /-- What the output holds afterwards. -/
  target : Option String
  /-- What the encoder was told, if it was started. -/
  arguments : Option (List String)

/-! ## §2. Exports. -/

variable [Scalar α]

/-- Makes the directory of the output and has the backend render the job. -/
def exportWith (backend : Backend α) (job : ExportJob α) (scene : ExportScene) :
    ExportOutcome α :=
  let stop (f : Failure) (reports : List (ExportProgress α)) : ExportOutcome α :=
    ⟨.error f, reports, scene.target, none⟩
  if !scene.sourceExists then stop (.fileNotFound job.source) []
  else
    match job.output.directory?.bind fun _ => scene.directory with
    | some cause => stop (.system cause) []
    | none =>
        let begun := [ExportProgress.idle .preparing 0]
        if !backend.isAvailable then
          stop (.unsupported ("Render backend '" ++ backend.name ++ "' is not available (is "
            ++ job.engine.encoder ++ " in PATH?)")) begun
        else
          let r := backend.render job scene.target
          match r.result with
          | .ok () => ⟨.ok job.output, begun ++ r.reports, r.target, r.arguments⟩
          | .error f =>
              ⟨.error f, begun ++ r.reports ++ [ExportProgress.idle .failed 0], r.target,
                r.arguments⟩

/-- Exports a job with the encoder that its engine names. -/
def exportJob (job : ExportJob α) (scene : ExportScene)
    (version : Except SystemError ProgramRun) (answers : EncoderAnswers α) : ExportOutcome α :=
  exportWith (Encoder.backend job.engine.encoder version answers) job scene

end GifEdit
