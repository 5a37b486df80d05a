/-
  GifEdit.Files.Tree
  ──────────────────
  **A TREE OF FILES, AND HOW PATHS LEAD THROUGH IT.**

  Commands meet files only through paths, and a path is followed step by step, by the
  letter of its text:

      name   the entry of that name; what it is entered from must be a directory
      .      stays, in a directory
      ..     goes up, in a directory
      /      at the end: what stands before it must be a directory

  So `missing/..` leads nowhere, although its components cancel.  The first step that
  cannot be made decides how an operation fails.  The working directory, those above
  it and the root are there from the start.
-/
import GifEdit.Files.Error
import GifEdit.Text.Path

namespace GifEdit

/-! ## §1. Places. -/

/-- Where something is, or could be. -/
structure Place where
  /-- How many levels above the working directory the names begin, or the root. -/
  above : Option Nat
  /-- The names on the way down, the last one first. -/
  names : List (List Char)
  deriving Repr, DecidableEq

namespace Place

/-- The working directory. -/
def working : Place := ⟨some 0, []⟩

/-- The root directory, which is above itself. -/
def root : Place := ⟨none, []⟩

/-- The directory above. -/
def parent (p : Place) : Place :=
  match p.names with
  | _ :: names => { p with names := names }
  | [] => { p with above := p.above.map (· + 1) }

/-- An entry of a directory. -/
def child (p : Place) (name : List Char) : Place := { p with names := name :: p.names }

/-- The path of a place, given that of the working directory. -/
def path (working : Path) (p : Place) : Path :=
  let base : Path := match p.above with
    | some n => n.repeat (fun q : Path => q.parent?.getD q) working
    | none => ⟨"/"⟩
  p.names.reverse.foldl (fun q name => q.join ⟨String.ofList name⟩) base

end Place

/-! ## §2. Paths as steps. -/

namespace Path

/-- Whether a system takes the text for a path at all. -/
def check (path : Path) : Except SystemError Unit :=
  if path.text.toList.contains '\x00' then .error .endInPath
  else if path.text.isEmpty then .error .notFound
  else if 4096 ≤ path.text.utf8ByteSize then .error .nameTooLong
  else .ok ()

/-- Where a path starts. -/
def origin (path : Path) : Place := if path.isAbsolute then .root else .working

/-- The pieces of a path that make steps. -/
def steps (path : Path) : List (List Char) := (pieces path.text.toList).filter (· != [])

/-- Whether a path ends in a slash, so that it can only lead to a directory. -/
def endsOpen (path : Path) : Bool := path.text.toList.getLast? == some '/'

end Path

/-! ## §3. Trees. -/

/-- What stands at a place. -/
inductive Node where
  | directory
  | file (content : List UInt8)
  /-- A file that can be run, known by a title. -/
  | program (title : String)
  deriving Repr, DecidableEq

/-- A tree of files: what was put where, the latest first. -/
structure Files where
  entries : List (Place × Node) := []
  deriving Repr, DecidableEq, Inhabited

namespace Files

/-- What stands at a place. -/
def node? (fs : Files) (p : Place) : Option Node :=
  if p.names.isEmpty then some .directory
  else (fs.entries.find? fun e => e.1 == p).map (·.2)

/-- The tree with something put at a place. -/
def put (fs : Files) (p : Place) (node : Node) : Files := ⟨(p, node) :: fs.entries⟩

/-! ## §4. Following paths. -/

/-- How many bytes a text takes. -/
def byteCount (cs : List Char) : Nat := (String.ofList cs).utf8ByteSize

/-- Whether a name is longer than that of any file. -/
def isLong (name : List Char) : Bool := 255 < byteCount name

/-- Makes one step from a place; where it leads need not be there. -/
def step (fs : Files) (p : Place) (piece : List Char) : Except SystemError Place :=
  match fs.node? p with
  | none => .error .notFound
  | some .directory =>
      if piece = ['.'] then .ok p
      else if piece = ['.', '.'] then .ok p.parent
      else if isLong piece then .error .nameTooLong
      else .ok (p.child piece)
  | some _ => .error .notDirectory

/-- Where a path leads; it need not be there. -/
def follow (fs : Files) (path : Path) : Except SystemError Place := do
  path.check
  let p ← path.steps.foldlM fs.step path.origin
  if path.endsOpen then fs.step p ['.'] else return p

/-- What a path leads to. -/
def find (fs : Files) (path : Path) : Except SystemError (Place × Node) := do
  let p ← fs.follow path
  match fs.node? p with
  | some node => return (p, node)
  | none => .error .notFound

/-- The directory in which the last step of a path is made, and the name that this step
enters; a path that ends in a dot enters none. -/
def lastStep (fs : Files) (path : Path) : Except SystemError (Place × Option (List Char)) := do
  path.check
  let pieces := path.steps
  let dir ← pieces.dropLast.foldlM fs.step path.origin
  let dir ← fs.step dir ['.']
  match pieces.getLast? with
  | none => return (dir, none)
  | some piece =>
      return (dir, if piece = ['.'] || piece = ['.', '.'] then none else some piece)

/-! ## §5. What can be done with files. -/

/-- Whether a path leads to something. -/
def isThere (fs : Files) (path : Path) : Bool := (fs.find path).toOption.isSome

/-- Whether a path leads to a directory. -/
def isDirectory (fs : Files) (path : Path) : Bool :=
  match fs.find path with
  | .ok (_, .directory) => true
  | _ => false

/-- The path without detours of what a path leads to. -/
def canonical? (fs : Files) (working path : Path) : Option Path :=
  (fs.find path).toOption.map fun found => found.1.path working

/-- The bytes of a file; those of a program are not known. -/
def read (fs : Files) (path : Path) : Except SystemError (List UInt8) := do
  match ← fs.find path with
  | (_, .directory) => .error .isDirectory
  | (_, .file content) => return content
  | (_, .program _) => return []

/-- The text of a file. -/
def readText (fs : Files) (path : Path) : Except SystemError String := do
  let bytes ← fs.read path
  match String.fromUTF8? ⟨bytes.toArray⟩ with
  | some text => return text
  | none => .error .noText

/-- Writes a file, in place of one that is there. -/
def write (fs : Files) (path : Path) (content : List UInt8) : Except SystemError Files := do
  match ← fs.lastStep path with
  | (_, none) => .error .isDirectory
  | (dir, some name) =>
      if path.endsOpen then .error .isDirectory
      else do
        let p ← fs.step dir name
        match fs.node? p with
        | some .directory => .error .isDirectory
        | _ => return fs.put p (.file content)

/-- Makes a directory where nothing is. -/
def makeDirectory (fs : Files) (path : Path) : Except SystemError Files := do
  match ← fs.lastStep path with
  | (_, none) => .error .alreadyThere
  | (dir, some name) =>
      let p ← fs.step dir name
      if (fs.node? p).isSome then .error .alreadyThere else return fs.put p .directory

/-- Makes a directory and, as far as they are missing, those that its path leads
through.  At most `levels` of them are made. -/
def makeLevels (fs : Files) : (levels : Nat) → Path → Except SystemError Files
  | 0, _ => .ok fs
  | levels + 1, path =>
      match path.parent? with
      | none => .ok fs
      | some outer =>
          let make (fs : Files) : Except SystemError Files :=
            match fs.makeDirectory path with
            | .ok fs => .ok fs
            | .error cause => if fs.isDirectory path then .ok fs else .error cause
          match make fs with
          | .ok fs => .ok fs
          | .error cause =>
              if cause = .notFound then do make (← fs.makeLevels levels outer)
              else .error cause

/-- Makes a directory and those that its path leads through. -/
def makeDirectories (fs : Files) (path : Path) : Except SystemError Files :=
  fs.makeLevels (path.text.length + 1) path

/-- The title of a program that is to be run.  A bare name is looked for among the
programs of the system, and there is none. -/
def start (fs : Files) (program : String) : Except SystemError String :=
  let cs := program.toList
  if cs.contains '\x00' then .error .endInProgram
  else if cs.contains '/' then do
    match ← fs.find ⟨program⟩ with
    | (_, .program title) => return title
    | _ => .error .permissionDenied
  else if cs = ['.'] || cs = ['.', '.'] then .error .permissionDenied
  else .error (if isLong cs then .nameTooLong else .notFound)

end Files
end GifEdit
