/-
  GifEdit.Render.Progress
  ───────────────────────
  **FOLLOWING THE ENCODER.**

  While it works, the encoder prints lines of the form `key=value`.  Two keys say how
  many microseconds of output there are, and every line with the key `progress`
  closes a block, which is when a report is due.  All other lines say nothing.
-/
import GifEdit.Decimal.Reader
import GifEdit.Text.Blank

namespace GifEdit

/-! ## §1. Reports. -/

/-- The stages of an export. -/
inductive ExportStage where
  | preparing
  | rendering
  | finalizing
  | complete
  | failed
  deriving Repr, DecidableEq, Inhabited

/-- A report on an export. -/
structure ExportProgress (α : Type) where
  stage : ExportStage
  /-- The finished share. -/
  progress : α
  framesRendered : Nat
  totalFrames : Nat
  /-- Estimated seconds to go. -/
  eta : α
  deriving Repr, DecidableEq

variable {α : Type} [Scalar α]

/-- The report at the start of a stage, when nothing is done yet. -/
def ExportProgress.idle (stage : ExportStage) (totalFrames : Nat) : ExportProgress α :=
  ⟨stage, 0, 0, totalFrames, 0⟩

/-- The report of a finished export. -/
def ExportProgress.done (totalFrames : Nat) : ExportProgress α :=
  ⟨.complete, 1, totalFrames, totalFrames, 0⟩

/-! ## §2. The state of the encoder. -/

/-- What the encoder last said of itself. -/
structure EncoderState (α : Type) where
  /-- Seconds of output. -/
  outTime : α
  /-- Whether it said that it is done. -/
  ended : Bool
  deriving Repr, DecidableEq

namespace EncoderState

/-- Nothing was said yet. -/
def start : EncoderState α := ⟨0, false⟩

/-- Takes in a line with a key and a value.  Both keys for the output time count
microseconds, whatever they are called. -/
def update (s : EncoderState α) (key value : String) : EncoderState α :=
  match key with
  | "out_time_ms" | "out_time_us" =>
      match Decimal.readFigure value with
      | some f => { s with outTime := f.toScalar / 1000000 }
      | none => s
  | "progress" => { s with ended := value == "end" }
  | _ => s

/-- The finished share of an output of expected length. -/
def share (s : EncoderState α) (expected : α) : α :=
  if expected ≤ 0 then 0 else Scalar.clamp (s.outTime / expected) 0 1

/-- Seconds to go, if the rest takes as long as what is done did in proportion. -/
def eta (share elapsed : α) : α :=
  Scalar.max (if 0 < share then elapsed / share - elapsed else 0) 0

/-- The report for a state. -/
def report (s : EncoderState α) (totalFrames : Nat) (expected elapsed : α) : ExportProgress α :=
  let share := s.share expected
  { stage := if s.ended then .finalizing else .rendering
    progress := if s.ended then 1 else share
    framesRendered :=
      Scalar.wholeUpTo Scalar.doubleWordMax (Scalar.round (share * Scalar.ofNat totalFrames))
    totalFrames := totalFrames
    eta := eta share elapsed }

end EncoderState

/-! ## §3. From lines to reports. -/

/-- The key and the value of a line, without the blanks around the line. -/
def keyValue? (line : List Char) : Option (String × String) :=
  (Text.splitOnce '=' (Text.trim line)).map fun (key, value) =>
    (String.ofList key, String.ofList value)

/-- The reports on lines that follow a state.  `elapsed n` are the seconds from the
start to the `n`-th report. -/
def reportsFrom (totalFrames : Nat) (expected : α) (elapsed : Nat → α) (s : EncoderState α)
    (n : Nat) : List (List Char) → List (ExportProgress α)
  | [] => []
  | line :: lines =>
      match keyValue? line with
      | none => reportsFrom totalFrames expected elapsed s n lines
      | some (key, value) =>
          let s := s.update key value
          if key == "progress" then
            s.report totalFrames expected (elapsed n) ::
              reportsFrom totalFrames expected elapsed s (n + 1) lines
          else reportsFrom totalFrames expected elapsed s n lines

/-- The reports on all that the encoder printed. -/
def encoderReports (totalFrames : Nat) (expected : α) (elapsed : Nat → α) (printed : String) :
    List (ExportProgress α) :=
  reportsFrom totalFrames expected elapsed .start 0 (Text.pieces printed.toList)

end GifEdit
