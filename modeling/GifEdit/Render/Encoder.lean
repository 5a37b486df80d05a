/-
  GifEdit.Render.Encoder
  ──────────────────────
  **RENDERING WITH THE ENCODER.**

  A BACKEND renders a job and reports on the way.  The one at hand runs the encoder in
  a scratch directory and moves the finished file onto the output only once the
  encoder has succeeded:

      compile, draw the mask, run, look for the file, move it

  What the surroundings do at each of these steps is given as data, so a render is a
  function of the job and of the answers it meets, and so are the file it leaves and
  the reports it sends.
-/
import GifEdit.Render.Planner
import GifEdit.Render.Png
import GifEdit.Render.Probe
import GifEdit.Render.Progress
import GifEdit.Config.Basic

namespace GifEdit

variable {α : Type}

/-! ## §1. Jobs. -/

/-- The path of the GIF beside a clip. -/
def Path.gifPath (source : Path) : Path :=
  source.withFileName (gifName (String.ofList (source.fileName?.getD [])))

/-- An edit that is ready to be rendered. -/
structure ExportJob (α : Type) where
  source : Path
  output : Path
  edit : Specification α
  engine : Engine
  deriving Repr, DecidableEq

/-- A job that writes beside its source. -/
def ExportJob.besideSource (source : Path) (edit : Specification α) (engine : Engine) :
    ExportJob α :=
  ⟨source, source.gifPath, edit, engine⟩

/-! ## §2. Moving the finished file. -/

/-- The two files of an export; `none` is a file that does not exist. -/
structure OutputFiles where
  /-- The render in the scratch directory. -/
  rendered : Option String
  /-- The output of the job. -/
  target : Option String
  deriving Repr, DecidableEq, Inhabited

/-- How the file system answers when the render is moved. -/
structure MoveAnswers where
  /-- Why renaming fails, which changes nothing. -/
  rename : Option SystemError := none
  /-- Why copying fails, and what it leaves in the output. -/
  copy : Option (SystemError × Option String) := none
  /-- Why the render cannot be removed, which changes nothing. -/
  remove : Option SystemError := none
  deriving Repr, DecidableEq, Inhabited

/-- Moves the render onto the output: by renaming it, or where that fails, as it does
between file systems, by copying and removing it. -/
def OutputFiles.move (files : OutputFiles) (answers : MoveAnswers) :
    Except SystemError Unit × OutputFiles :=
  match answers.rename with
  | none => (.ok (), ⟨none, files.rendered⟩)
  | some _ =>
      match answers.copy with
      | some (cause, left) => (.error cause, { files with target := left })
      | none =>
          match answers.remove with
          | some cause => (.error cause, { files with target := files.rendered })
          | none => (.ok (), ⟨none, files.rendered⟩)

/-! ## §3. Backends. -/

/-- What came of rendering a job. -/
structure Rendering (α : Type) where
  result : Except Failure Unit
  reports : List (ExportProgress α)
  /-- What the output holds afterwards. -/
  target : Option String
  /-- What the encoder was told, if it was started. -/
  arguments : Option (List String)

/-- Something that can render a job. -/
structure Backend (α : Type) where
  name : String
  isAvailable : Bool
  /-- Renders a job whose output holds this before. -/
  render : ExportJob α → Option String → Rendering α

/-- Why a run of the encoder has no exit status. -/
inductive Interruption where
  /-- The next line it prints cannot be read. -/
  | unread (cause : SystemError)
  /-- Its end cannot be awaited. -/
  | unawaited (cause : SystemError)
  /-- A signal ended it, named as the system does. -/
  | killed (signal : String)
  deriving Repr, DecidableEq

/-- What came of running the encoder. -/
structure EncoderRun (α : Type) where
  /-- The run, with the lines that could be read. -/
  run : ProgramRun
  interruption : Option Interruption := none
  /-- What it wrote. -/
  written : Option String
  /-- Seconds from its start to its `n`-th report. -/
  elapsed : Nat → α

/-- How the surroundings answer a render. -/
structure EncoderAnswers (α : Type) where
  /-- The scratch directory. -/
  scratch : Except SystemError Path
  /-- Why the mask cannot be written. -/
  mask : Option SystemError := none
  run : Except SystemError (EncoderRun α)
  move : MoveAnswers := {}

namespace Encoder

variable [Scalar α]

/-- Where the mask is drawn. -/
def maskPath (scratch : Path) : Path := scratch.join ⟨"mask.png"⟩

/-- Where the encoder writes. -/
def renderPath (scratch : Path) : Path := scratch.join ⟨"out.gif"⟩

/-- The arguments for a pipeline: the standard ones, and progress on the output. -/
def arguments (p : Pipeline α) (source scratch : Path) : List String :=
  ["-progress", "pipe:1", "-nostats"] ++
    p.arguments source (p.mask?.map fun _ => maskPath scratch) (renderPath scratch)

/-- Draws the mask of a pipeline, if it has one. -/
def drawMask (p : Pipeline α) (scratch : Path) (answer : Option SystemError) :
    Except Failure Unit :=
  match p.mask? with
  | none => .ok ()
  | some mask => do
      mask.check
      match answer with
      | none => .ok ()
      | some cause =>
          .error (.image
            ("Failed to write mask " ++ (maskPath scratch).text ++ ": " ++ cause.message))

/-- A run that ended with a status which is no success. -/
def failedRun (status : String) (r : EncoderRun α) : Failure :=
  .engine ("ffmpeg export failed (status " ++ status ++ "): " ++ r.run.complaintText)

/-- Judges a run by how it ended and by the file it should have written. -/
def judge (scratch : Path) (r : EncoderRun α) : Except Failure Unit :=
  match r.interruption with
  | some (.unread cause) =>
      .error (.engine ("Failed reading ffmpeg progress: " ++ cause.message))
  | some (.unawaited cause) =>
      .error (.engine ("Failed to wait on ffmpeg: " ++ cause.message))
  | some (.killed signal) => .error (failedRun ("signal: " ++ signal) r)
  | none =>
      if !r.run.succeeded then .error (failedRun r.run.statusText r)
      else if r.written.isNone then
        .error (.engine
          ("ffmpeg reported success but " ++ (renderPath scratch).text ++ " was not written"))
      else .ok ()

/-- Renders a pipeline in a scratch directory. -/
def renderIn (program : String) (p : Pipeline α) (job : ExportJob α) (scratch : Path)
    (answers : EncoderAnswers α) (target : Option String) : Rendering α :=
  match drawMask p scratch answers.mask with
  | .error f => ⟨.error f, [], target, none⟩
  | .ok () =>
      let told := some (arguments p job.source scratch)
      let prepared := [ExportProgress.idle .preparing p.totalFrames]
      match answers.run with
      | .error cause =>
          let f := Failure.engine ("Failed to start " ++ program ++ ": " ++ cause.message)
          ⟨.error f, prepared, target, none⟩
      | .ok r =>
          let followed := prepared ++
            encoderReports p.totalFrames p.duration r.elapsed r.run.printed
          match judge scratch r with
          | .error f => ⟨.error f, followed, target, told⟩
          | .ok () =>
              match OutputFiles.move ⟨r.written, target⟩ answers.move with
              | (.error cause, files) => ⟨.error (.system cause), followed, files.target, told⟩
              | (.ok (), files) =>
                  ⟨.ok (), followed ++ [ExportProgress.done p.totalFrames], files.target, told⟩

/-- Renders a job with the encoder. -/
def render (program : String) (answers : EncoderAnswers α) (job : ExportJob α)
    (target : Option String) : Rendering α :=
  match answers.scratch with
  | .error cause => ⟨.error (.system cause), [], target, none⟩
  | .ok scratch => renderIn program job.edit.pipeline job scratch answers target

/-- Whether a program can be used: it starts and succeeds when asked for its version. -/
def isRunnable : Except SystemError ProgramRun → Bool
  | .ok r => r.succeeded
  | .error _ => false

/-- The encoder as a backend; `version` is what came of asking for its version. -/
def backend (program : String) (version : Except SystemError ProgramRun)
    (answers : EncoderAnswers α) : Backend α :=
  ⟨"ffmpeg", isRunnable version, render program answers⟩

end Encoder

end GifEdit
