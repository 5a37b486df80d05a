/-
  GifEdit.Command.Surroundings
  ────────────────────────────
  **COMMANDS AMONG FILES AND PROGRAMS.**

  Surroundings hold everything a command can meet: a tree of files, the programs in it
  with what comes of running them, and the clock.  With them a command line has one
  reply, so what the whole program does is a function too.
-/
import GifEdit.Command.Arguments
import GifEdit.Command.Readiness

namespace GifEdit

/-- What a command can meet. -/
structure Surroundings (α : Type) where
  files : Files
  /-- The path of the working directory. -/
  working : Path
  /-- A directory of its own that a render is given. -/
  scratch : Path
  /-- Where a configuration lies unless another place is named. -/
  standardConfig : Path
  now : Timestamp
  /-- What comes of asking a program for its version, by its title. -/
  version : String → ProgramRun
  /-- What comes of running a program, by its title. -/
  run : String → ProgramRun
  /-- What a program writes to the file it is told last. -/
  writes : String → Option String
  /-- Seconds from the start of a program to its `n`-th report. -/
  elapsed : Nat → α

namespace Surroundings

variable {α : Type} [Scalar α] [Legible α]

/-- What comes of asking a program for its version. -/
def askVersion (s : Surroundings α) (program : String) : Except SystemError ProgramRun :=
  (s.files.start program).map s.version

/-- Whether a program can be used. -/
def isRunnable (s : Surroundings α) (program : String) : Bool :=
  Encoder.isRunnable (s.askVersion program)

/-- The clip that a prober finds in a file. -/
def probe (s : Surroundings α) (prober : String) (file : Path) : Except Failure (Clip α) :=
  GifEdit.probe prober file (s.files.isThere file) ((s.files.start prober).map s.run)

/-- What a job finds before it starts.  The directory of the output is made before the
output is looked at. -/
def scene (s : Surroundings α) (job : ExportJob α) : ExportScene :=
  let sourceExists := s.files.isThere job.source
  match job.output.directory?.map s.files.makeDirectories with
  | some (.error cause) => ⟨sourceExists, some cause, none⟩
  | _ => ⟨sourceExists, none, (s.files.readText job.output).toOption⟩

/-- How the finished file of a job can be moved.  Where the output cannot be written to,
neither renaming nor copying succeeds, and the output stays as it is. -/
def move (s : Surroundings α) (job : ExportJob α) : MoveAnswers :=
  let made := (job.output.directory?.map s.files.makeDirectories).getD (.ok s.files)
  match (made.toOption.getD s.files).write job.output [] with
  | .ok _ => {}
  | .error cause =>
      { rename := some cause, copy := some (cause, (s.files.readText job.output).toOption) }

/-- How a job's render is answered. -/
def exportAnswers (s : Surroundings α) (job : ExportJob α) : ExportAnswers α :=
  let program := job.engine.encoder
  { scene := s.scene job
    version := s.askVersion program
    encoder :=
      { scratch := .ok s.scratch
        run := (s.files.start program).map fun title =>
          { run := s.run title, written := s.writes title, elapsed := s.elapsed }
        move := s.move job } }

/-- The reply to a request. -/
def reply [SquareRoot α] (s : Surroundings α) (i : Invocation α) (config : Config α) : Reply α :=
  match i.request with
  | .create a =>
      newDocument a config (s.probe config.engine.prober a.source)
        (s.files.canonical? s.working a.source) s.now
  | .describe document => GifEdit.describe document (s.files.readText document)
  | .replay a =>
      replayScript a config (s.files.readText a.document) (s.files.readText a.script) s.now
  | .plan document asJson => showPlan document (s.files.readText document) asJson
  | .mask m output => drawMask m output
  | .render a => exportDocument a config (s.files.readText a.document) s.exportAnswers
  | .check =>
      let path := i.config.getD s.standardConfig
      checkReadiness ⟨s.isRunnable config.engine.encoder, s.isRunnable config.engine.prober, path,
        s.files.isThere path⟩ config

end Surroundings
end GifEdit
