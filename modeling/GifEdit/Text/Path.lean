/-
  GifEdit.Text.Path
  ─────────────────
  **FILE PATHS.**

  A path is a text of names separated by slashes.  A leading slash makes it
  absolute; repeated slashes, a trailing slash and every `.` but a leading one say
  nothing.  Two paths are the same if their components are; their texts may
  differ, and it is the text that is shown.
-/
namespace GifEdit

/-- A file path, kept as it was written. -/
structure Path where
  text : String
  deriving Repr, DecidableEq, Inhabited

namespace Path

/-! ## §1. Components. -/

/-- One step of a path. -/
inductive Component where
  /-- The root directory: a leading slash. -/
  | root
  /-- The current directory: a leading `.`. -/
  | current
  /-- The directory above. -/
  | parent
  /-- A file or directory name. -/
  | name (cs : List Char)
  deriving Repr, DecidableEq

/-- The step a piece between slashes stands for, if any. -/
def component? : List Char → Option Component
  | [] | ['.'] => none
  | ['.', '.'] => some .parent
  | cs => some (.name cs)

/-- The part of a path that its components are not searched in: the leading slash
or the leading `.`, with the rest of the path. -/
def splitHead : List Char → List Char × List Char
  | '/' :: cs => (['/'], cs)
  | ['.'] => (['.'], [])
  | '.' :: '/' :: cs => (['.'], '/' :: cs)
  | cs => ([], cs)

/-- The pieces between slashes. -/
def pieces : List Char → List (List Char)
  | [] => [[]]
  | '/' :: cs => [] :: pieces cs
  | c :: cs =>
      match pieces cs with
      | [] => [[c]]
      | piece :: rest => (c :: piece) :: rest

/-- The components of a path. -/
def components (p : Path) : List Component :=
  let (head, body) := splitHead p.text.toList
  let first := match head with
    | ['/'] => [Component.root]
    | ['.'] => [Component.current]
    | _ => []
  first ++ (pieces body).filterMap component?

/-- Whether two paths have the same components. -/
def same (p q : Path) : Bool := p.components == q.components

/-- Whether a path starts at the root. -/
def isAbsolute (p : Path) : Bool := p.text.toList.head? == some '/'

/-! ## §2. Taking paths apart.

The body of a path is searched from its end, so it is held reversed. -/

/-- The last piece of a reversed body, in reading order. -/
def lastPiece (body : List Char) : List Char := (body.takeWhile (· != '/')).reverse

/-- A reversed body without its last piece and the slash before it. -/
def dropPiece (body : List Char) : List Char := (body.dropWhile (· != '/')).drop 1

/-- Dropping a piece shortens a body that is not empty. -/
theorem length_dropPiece_lt (c : Char) (body : List Char) :
    (dropPiece (c :: body)).length < (c :: body).length := by
  have h : ((c :: body).dropWhile (· != '/')).length ≤ (c :: body).length :=
    (List.dropWhile_suffix _).length_le
  simp only [dropPiece, List.length_drop]
  simp only [List.length_cons] at h ⊢
  omega

/-- A reversed body without the empty pieces and dots at its end. -/
def trimPieces : List Char → List Char
  | [] => []
  | c :: body =>
      if (component? (lastPiece (c :: body))).isSome then c :: body
      else trimPieces (dropPiece (c :: body))
termination_by body => body.length
decreasing_by exact length_dropPiece_lt c body

/-- Head, reversed body and last component of a path whose body has one. -/
def popped (p : Path) : Option (List Char × List Char × Component) :=
  let (head, body) := splitHead p.text.toList
  let trimmed := trimPieces body.reverse
  (component? (lastPiece trimmed)).map fun c => (head, dropPiece trimmed, c)

/-- The name of the file a path ends in. -/
def fileName? (p : Path) : Option (List Char) :=
  match p.popped with
  | some (_, _, .name cs) => some cs
  | _ => none

/-- The directory part: the path without its last component.  The root and the
empty path have none. -/
def parent? (p : Path) : Option Path :=
  match p.popped with
  | some (head, body, _) => some ⟨String.ofList (head ++ (trimPieces body).reverse)⟩
  | none =>
      match splitHead p.text.toList with
      | (['.'], _) => some ⟨""⟩
      | _ => none

/-- The directory that has to be there before a file can be written, unless it is the
current one. -/
def directory? (p : Path) : Option Path := p.parent?.filter fun dir => dir.text != ""

/-- A file name without its last extension; a name that starts with its only dot
has none. -/
def stem (name : List Char) : List Char :=
  if name = ['.', '.'] then name
  else
    match name.reverse.dropWhile (· != '.') with
    | [] | ['.'] => name
    | _ :: before => before.reverse

/-! ## §3. Putting paths together. -/

/-- The path `q` seen from the directory `p`. -/
def join (p q : Path) : Path :=
  if q.isAbsolute then q
  else
    match p.text.toList.getLast? with
    | none => q
    | some '/' => ⟨p.text ++ q.text⟩
    | some _ => ⟨p.text ++ "/" ++ q.text⟩

/-- A path with its file name replaced, or with the name added if it has none. -/
def withFileName (p : Path) (name : String) : Path :=
  match p.fileName? with
  | some _ => ((p.parent?).getD p).join ⟨name⟩
  | none => p.join ⟨name⟩

end Path
end GifEdit
