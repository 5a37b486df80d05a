/-
  GifEdit.Document
  ────────────────
  **EDIT DOCUMENTS.**

  An edit saved beside its clip, with the format's version, two timestamps and the
  path of the clip: relative to the document, or absolute.
-/
import GifEdit.Edit.Codec
import GifEdit.Failure
import GifEdit.Files.Saving
import GifEdit.Text.Timestamp

namespace GifEdit

open Json (Problem Decoder Schema require)

/-! ## §1. Documents. -/

/-- A saved edit. -/
structure Document (α : Type) where
  version : String
  createdAt : Timestamp
  modifiedAt : Timestamp
  sourcePath : Path
  edit : Specification α
  deriving Repr, DecidableEq

namespace Document

variable {α : Type} [Scalar α] [Legible α]

/-- The version of documents this library writes. -/
def currentVersion : String := "1.0"

/-- A fresh document around an edit. -/
def ofEdit (now : Timestamp) (sourcePath : Path) (edit : Specification α) : Document α :=
  ⟨currentVersion, now, now, sourcePath, edit⟩

/-- A fresh document that keeps the whole clip. -/
def create (now : Timestamp) (sourcePath : Path) (source : Clip α) (settings : ExportSettings)
    (background : Background α) : Except (EditError α) (Document α) :=
  (Specification.ofClip source settings background).map (ofEdit now sourcePath)

/-- The document with another edit. -/
def update (d : Document α) (now : Timestamp) (edit : Specification α) : Document α :=
  { d with edit := edit, modifiedAt := now }

/-- Where the clip of a document lies, for a document at a given path. -/
def resolveSource (d : Document α) (documentPath : Path) : Path :=
  if d.sourcePath.isAbsolute then d.sourcePath
  else
    match documentPath.parent? with
    | some dir => dir.join d.sourcePath
    | none => d.sourcePath

/-! ## §2. JSON. -/

/-- A timestamp by its text. -/
def decodeTime : Decoder Timestamp := fun v => do
  let s ← Json.decodeText "an RFC 3339 formatted date and time string" v
  match Timestamp.ofChars s.toList with
  | .ok t => .ok t
  | .error fault => .error (.refused fault.message)

/-- A document as JSON. -/
def toJson (d : Document α) : Json :=
  .record [("version", .string d.version), ("created_at", .string d.createdAt.text),
    ("modified_at", .string d.modifiedAt.text), ("source_path", .string d.sourcePath.text),
    ("edit", d.edit.toJson)]

/-- What was found of a document. -/
structure Found (α : Type) where
  version : Option String := none
  createdAt : Option Timestamp := none
  modifiedAt : Option Timestamp := none
  sourcePath : Option Path := none
  edit : Option (Specification α) := none

/-- The fields of a document. -/
def schema : Schema (Found α) (Document α) where
  name := "struct EditDocument"
  fields := [("version", false), ("created_at", false), ("modified_at", false),
    ("source_path", false), ("edit", false)]
  start := {}
  put found key v :=
    match key with
    | "version" => return { found with version := some (← Json.decodeString v) }
    | "created_at" => return { found with createdAt := some (← decodeTime v) }
    | "modified_at" => return { found with modifiedAt := some (← decodeTime v) }
    | "source_path" =>
        return { found with sourcePath := some ⟨← Json.decodeText "path string" v⟩ }
    | _ => return { found with edit := some (← Specification.decode v) }
  finish found := do
    let version ← require "version" found.version
    let createdAt ← require "created_at" found.createdAt
    let modifiedAt ← require "modified_at" found.modifiedAt
    let sourcePath ← require "source_path" found.sourcePath
    let edit ← require "edit" found.edit
    return ⟨version, createdAt, modifiedAt, sourcePath, edit⟩

/-- Reads a document. -/
def decode : Decoder (Document α) := schema.decode .text

/-- The text of a document file. -/
def text (d : Document α) : String := d.toJson.indentedText

end Document

/-! ## §3. Loading and saving. -/

/-- Why a document could not be loaded or made. -/
inductive DocumentError (α : Type) where
  /-- The file could not be read or written. -/
  | file (path : Path) (cause : SystemError)
  /-- The file holds no document. -/
  | content (path : Path) (problem : Json.Problem)
  /-- The edit was refused. -/
  | edit (cause : EditError α)
  deriving Repr, DecidableEq

namespace DocumentError

variable {α : Type} [Legible α]

/-- The message of a document error. -/
def message : DocumentError α → String
  | .file path cause => "I/O error at " ++ path.text ++ ": " ++ cause.message
  | .content path problem => "Parse error in " ++ path.text ++ ": " ++ problem.message
  | .edit cause => "Invalid edit: " ++ cause.message

end DocumentError

namespace Document

variable {α : Type} [Scalar α] [Legible α]

/-- The document that the text of a file holds, if it could be read. -/
def load (path : Path) (file : Except SystemError String) :
    Except (DocumentError α) (Document α) :=
  match file with
  | .error cause => .error (.file path cause)
  | .ok text =>
      match Json.decodeDocument decode text with
      | .ok d => .ok d
      | .error problem => .error (.content path problem)

/-- The document as a file to be written, in a directory that is made for it. -/
def saving (d : Document α) (path : Path) : Saving (DocumentError α) :=
  .ofText path d.text .file

end Document

end GifEdit
