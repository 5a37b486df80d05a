/-
  GifEdit.Failure
  ───────────────
  **HOW AN OPERATION OF THE EDITOR FAILS.**

  Rules about edits have errors of their own; what remains, loading, probing and
  rendering, fails in one of the ways below.  Failures of the external engine are
  final for an export and are never retried, so they can be told apart.
-/
import GifEdit.Files.Error
import GifEdit.Json.Decode
import GifEdit.Text.Path

namespace GifEdit

/-- Why an operation failed. -/
inductive Failure where
  | edit (reason : String)
  | render (reason : String)
  | engine (reason : String)
  | config (reason : String)
  | fileNotFound (path : Path)
  | unsupported (reason : String)
  | image (reason : String)
  | system (cause : SystemError)
  | json (problem : Json.Problem)
  deriving Repr, DecidableEq

namespace Failure

/-- The message of a failure. -/
def message : Failure → String
  | .edit reason => "Edit error: " ++ reason
  | .render reason => "Render error: " ++ reason
  | .engine reason => "Engine error: " ++ reason
  | .config reason => "Configuration error: " ++ reason
  | .fileNotFound path => "File not found: " ++ path.text
  | .unsupported reason => "Unsupported operation: " ++ reason
  | .image reason => "Image error: " ++ reason
  | .system cause => cause.message
  | .json problem => problem.message

/-- Whether the external engine is to blame. -/
def isEngine : Failure → Bool
  | .engine _ => true
  | _ => false

end Failure
end GifEdit
