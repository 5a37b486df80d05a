/-
  GifEdit.Render.Probe
  ────────────────────
  **WHAT THE PROBER SAYS OF A VIDEO.**

  The prober prints a JSON text that describes the first video stream of a file and
  the container around it.  A clip needs the sides of the stream and a duration; the
  container's is preferred, and the stream's stands in where the container gives
  none.
-/
import GifEdit.Edit.Clip
import GifEdit.Failure
import GifEdit.Decimal.Reader
import GifEdit.Text.Blank

namespace GifEdit

open Json (Problem Decoder Schema)

/-! ## §1. Runs of external programs. -/

/-- What a finished program left behind. -/
structure ProgramRun where
  /-- What it printed. -/
  printed : String := ""
  /-- What it complained about. -/
  complaint : String := ""
  /-- Its exit status; zero is success. -/
  status : Nat := 0
  deriving Repr, DecidableEq, Inhabited

namespace ProgramRun

/-- Whether the program says that it succeeded. -/
def succeeded (r : ProgramRun) : Bool := r.status = 0

/-- The exit status in words. -/
def statusText (r : ProgramRun) : String := "exit status: " ++ toString r.status

/-- The complaint without the blanks around it. -/
def complaintText (r : ProgramRun) : String := String.ofList (Text.trim r.complaint.toList)

end ProgramRun

/-! ## §2. Reports of the prober. -/

/-- What is said of a stream. -/
structure ProbedStream where
  width : Option Nat := none
  height : Option Nat := none
  duration : Option String := none
  deriving Repr, DecidableEq, Inhabited

/-- What is said of a file. -/
structure ProbeReport where
  streams : List ProbedStream := []
  /-- The container's duration, if there is a container and it gives one. -/
  duration : Option String := none
  deriving Repr, DecidableEq, Inhabited

namespace ProbedStream

/-- The fields of a stream of a report. -/
def schema : Schema ProbedStream ProbedStream where
  name := "struct ProbeStream"
  fields := [("width", false), ("height", false), ("duration", false)]
  start := {}
  put found key v :=
    match key with
    | "width" => return { found with width := ← Json.decodeOption Json.decodeWord v }
    | "height" => return { found with height := ← Json.decodeOption Json.decodeWord v }
    | _ => return { found with duration := ← Json.decodeOption Json.decodeString v }
  finish := .ok

end ProbedStream

namespace ProbeReport

/-- The duration of a container. -/
def containerSchema : Schema (Option String) (Option String) where
  name := "struct ProbeFormat"
  fields := [("duration", false)]
  start := none
  put _ _ v := Json.decodeOption Json.decodeString v
  finish := .ok

/-- The fields of a report. -/
def schema : Schema ProbeReport ProbeReport where
  name := "struct ProbeOutput"
  fields := [("streams", true), ("format", false)]
  start := {}
  put found key v :=
    match key with
    | "streams" =>
        return { found with streams := ← Json.decodeList (ProbedStream.schema.decode .text) v }
    | _ =>
        return { found with
          duration := (← Json.decodeOption (containerSchema.decode .text) v).join }
  finish := .ok

/-- Reads a report. -/
def decode : Decoder ProbeReport := schema.decode .text

end ProbeReport

/-! ## §3. Clips. -/

variable {α : Type} [Scalar α]

/-- The duration a text gives, if it can be that of a clip. -/
def usableDuration? (s : String) : Option α :=
  match Decimal.readFigure s with
  | none => none
  | some f =>
      let d : α := f.toScalar
      if Scalar.isFinite d && 0 < d then some d else none

/-- The clip of a given name that a report describes. -/
def ProbeReport.clip (name : String) (r : ProbeReport) : Except Failure (Clip α) :=
  match r.streams with
  | [] => .error (.render (name ++ " has no video stream"))
  | stream :: _ =>
      match stream.width, stream.height with
      | some (w + 1), some (h + 1) =>
          match (r.duration <|> stream.duration).bind usableDuration? with
          | some d => .ok ⟨name, d, w + 1, h + 1⟩
          | none => .error (.render (name ++ " reports no duration"))
      | _, _ => .error (.render (name ++ " reports no usable video dimensions"))

/-- The clip of a given name that a printed report describes. -/
def readProbe (name printed : String) : Except Failure (Clip α) :=
  match Json.decodeDocument ProbeReport.decode printed with
  | .error problem => .error (.json problem)
  | .ok report => report.clip name

/-! ## §4. Probing. -/

/-- What the prober is asked. -/
def probeArguments (file : Path) : List String :=
  ["-v", "error", "-select_streams", "v:0", "-show_entries",
    "stream=width,height,duration:format=duration", "-of", "json", file.text]

/-- The name a file goes by. -/
def Path.displayName (p : Path) : String :=
  match p.fileName? with
  | some name => String.ofList name
  | none => p.text

/-- The clip in a file, from what came of running the prober on it. -/
def probe (prober : String) (file : Path) (fileExists : Bool)
    (run : Except SystemError ProgramRun) : Except Failure (Clip α) :=
  if !fileExists then .error (.fileNotFound file)
  else
    match run with
    | .error e => .error (.engine ("Failed to start " ++ prober ++ ": " ++ e.message))
    | .ok r =>
        if r.succeeded then readProbe file.displayName r.printed
        else
          .error (.engine
            (prober ++ " failed (status " ++ r.statusText ++ "): " ++ r.complaintText))

end GifEdit
