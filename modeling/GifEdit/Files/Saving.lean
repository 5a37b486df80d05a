/-
  GifEdit.Files.Saving
  ────────────────────
  **FILES TO BE WRITTEN.**

  What is written is decided before anything is: where, after which directory is made,
  which bytes, and what is said if the system refuses.  Carrying it out on a tree of
  files gives the tree that it leaves.
-/
import GifEdit.Files.Tree

namespace GifEdit

/-- A file to be written. -/
structure Saving (ε : Type) where
  path : Path
  /-- A directory to be made first. -/
  directory : Option Path := none
  content : List UInt8
  /-- What is said if the directory or the file cannot be written. -/
  refused : Path → SystemError → ε

namespace Saving

variable {ε : Type}

/-- A text to be written, after the directory around it is made. -/
def ofText (path : Path) (text : String) (refused : Path → SystemError → ε) : Saving ε :=
  ⟨path, path.directory?, text.toUTF8.toList, refused⟩

/-- The same file, with something else to be said if it cannot be written. -/
def mapError {δ : Type} (s : Saving ε) (f : ε → δ) : Saving δ :=
  ⟨s.path, s.directory, s.content, fun place cause => f (s.refused place cause)⟩

/-- Writes the file into a tree. -/
def store (s : Saving ε) (fs : Files) : Except ε Files := do
  let fs ← match s.directory with
    | some dir => (fs.makeDirectories dir).mapError (s.refused dir)
    | none => .ok fs
  (fs.write s.path s.content).mapError (s.refused s.path)

end Saving
end GifEdit
