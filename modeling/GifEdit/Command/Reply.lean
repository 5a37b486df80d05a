/-
  GifEdit.Command.Reply
  ─────────────────────
  **WHAT A COMMAND DOES.**

  A command is given what it finds in files and what came of running programs, and
  replies with data: what it prints, and how it ends.  A command that writes a file
  does so at its end, so its reply holds the file to be written and what to print once
  it is; settling the reply in a tree of files carries it out.
-/
import GifEdit.Document
import GifEdit.Editor.Session

namespace GifEdit

/-! ## §1. Failures. -/

/-- Why a command failed. -/
inductive CommandError (α : Type) where
  | load (cause : DocumentError α)
  | create (cause : DocumentError α)
  | save (cause : DocumentError α)
  | readScript (path : Path) (cause : SystemError)
  | parseScript (path : Path) (problem : Json.Problem)
  | session (cause : SessionError α)
  | edit (cause : EditError α)
  | probe (path : Path) (cause : Failure)
  | mask (cause : Failure)
  | render (cause : Failure)
  /-- A name that is none of the qualities. -/
  | unknownQuality (name : String)
  /-- The quality that only labels other settings. -/
  | customQuality
  deriving Repr, DecidableEq

/-- The message of a failed command. -/
def CommandError.message {α : Type} [Legible α] : CommandError α → String
  | .load cause => "Failed to load edit document: " ++ cause.message
  | .create cause => "Failed to create edit document: " ++ cause.message
  | .save cause => "Failed to save edit document: " ++ cause.message
  | .readScript path cause => "Failed to read script " ++ path.text ++ ": " ++ cause.message
  | .parseScript path problem =>
      "Failed to parse script " ++ path.text ++ ": " ++ problem.message
  | .session cause => cause.message
  | .edit cause => cause.message
  | .probe path cause => "Failed to probe " ++ path.text ++ ": " ++ cause.message
  | .mask cause => cause.message
  | .render cause => "\nExport failed: " ++ cause.message
  | .unknownQuality name => "unknown quality preset: " ++ name ++ ". Use: high, medium, low"
  | .customQuality => "'custom' is not a preset to apply. Use: high, medium, low"

/-! ## §2. Replies. -/

/-- How a command ends. -/
inductive Ending (α : Type) where
  | done
  | failed (cause : CommandError α)
  /-- With a file that is written; what is printed once it is. -/
  | saving (file : Saving (CommandError α)) (afterwards : String)

/-- What a command prints, and how it ends. -/
structure Reply (α : Type) where
  printed : String
  ending : Ending α

namespace Reply

variable {α : Type}

/-- Prints and is done. -/
def say (printed : String) : Reply α := ⟨printed, .done⟩

/-- Prints and fails. -/
def fail (cause : CommandError α) (printed : String := "") : Reply α := ⟨printed, .failed cause⟩

/-- A reply that depends on a step that may fail before anything is printed. -/
def after {β : Type} (step : Except (CommandError α) β) (next : β → Reply α) : Reply α :=
  match step with
  | .error cause => fail cause
  | .ok b => next b

/-- Saves a document at the end. -/
def saveDocument [Scalar α] [Legible α] (printed : String) (path : Path) (document : Document α)
    (afterwards : String) : Reply α :=
  ⟨printed, .saving ((document.saving path).mapError .save) afterwards⟩

/-- What a command has printed when it ends in a tree of files, and the tree that it
leaves unless it fails. -/
def settle (r : Reply α) (fs : Files) : String × Except (CommandError α) Files :=
  match r.ending with
  | .done => (r.printed, .ok fs)
  | .failed cause => (r.printed, .error cause)
  | .saving file afterwards =>
      match file.store fs with
      | .ok fs => (r.printed ++ afterwards, .ok fs)
      | .error cause => (r.printed, .error cause)

end Reply

/-! ## §3. Steps that commands share. -/

variable {α : Type} [Scalar α] [Legible α]

/-- The document that the text of a file holds, if it could be read. -/
def loadDocument (path : Path) (file : Except SystemError String) :
    Except (CommandError α) (Document α) :=
  (Document.load path file).mapError .load

/-- A quality to take settings from. -/
def appliedQuality (name : String) : Except (CommandError α) Quality :=
  match Quality.ofText name with
  | .ok .custom => .error .customQuality
  | .ok q => .ok q
  | .error name => .error (.unknownQuality name)

/-- Lines, each with its end. -/
def linesText (lines : List String) : String := String.join (lines.map (· ++ "\n"))

/-- A crop for people. -/
def cropText : Option Region → String
  | none => "none"
  | some r =>
      sidesText r.width r.height ++ " at (" ++ toString r.x ++ ", " ++ toString r.y ++ ")"

end GifEdit
