/-
  GifEdit.Command.Arguments
  ─────────────────────────
  **THE WORDS OF A COMMAND LINE.**

  A command line names a command, gives it its places in order, and sets options
  anywhere among them:

      --name VALUE    --name=VALUE    -o VALUE    -oVALUE    --switch

  After a bare `--` every word is a place.  Words are sorted without regard to what
  they mean; a table says which options and places each command has, and a request
  is made from the sorted words.
-/
import GifEdit.Command.Authoring
import GifEdit.Command.Rendering

namespace GifEdit

/-! ## §1. Errors. -/

/-- Why a command line is refused. -/
inductive UsageError where
  | noCommand
  | unknownCommand (name : String)
  | unknownOption (word : String)
  | missingValue (option : String)
  | needlessValue (option : String)
  | repeatedOption (option : String)
  | missingPlace (place : String)
  | extraPlace (word : String)
  | badValue (option value : String)
  deriving Repr, DecidableEq

/-- The message of a usage error. -/
def UsageError.message : UsageError → String
  | .noCommand => "no command given"
  | .unknownCommand name => "unknown command '" ++ name ++ "'"
  | .unknownOption word => "unexpected argument '" ++ word ++ "'"
  | .missingValue option => "a value is required for '--" ++ option ++ "'"
  | .needlessValue option => "'--" ++ option ++ "' takes no value"
  | .repeatedOption option => "'--" ++ option ++ "' cannot be used multiple times"
  | .missingPlace place => "the required argument <" ++ place ++ "> was not provided"
  | .extraPlace word => "unexpected argument '" ++ word ++ "'"
  | .badValue option value => "invalid value '" ++ value ++ "' for '--" ++ option ++ "'"

/-! ## §2. Sorting words. -/

/-- An option of a command; a switch takes no value. -/
structure OptionKind where
  name : String
  letter : Option Char := none
  isSwitch : Bool := false
  deriving Repr, DecidableEq

/-- The words of a command line, sorted. -/
structure Words where
  /-- The options that are set, with their values; that of a switch is empty. -/
  options : List (String × String) := []
  places : List String := []
  deriving Repr, DecidableEq, Inhabited

/-- What a single word is. -/
inductive Word where
  /-- An option by its name, perhaps with a value behind an equals sign. -/
  | long (name : List Char) (value : Option (List Char))
  /-- An option by its letter, with what follows the letter. -/
  | short (letter : Char) (rest : List Char)
  /-- The mark after which every word is a place. -/
  | mark
  | place
  deriving Repr, DecidableEq

/-- What a word is; a lone dash is a place. -/
def Word.ofChars : List Char → Word
  | ['-', '-'] => .mark
  | '-' :: '-' :: cs =>
      match cs.dropWhile (· != '=') with
      | '=' :: value => .long (cs.takeWhile (· != '=')) (some value)
      | _ => .long cs none
  | '-' :: c :: rest => .short c rest
  | _ => .place

/-- The option that a word sets, with the value it holds itself. -/
def OptionKind.find? (kinds : List OptionKind) : Word → Option (OptionKind × Option (List Char))
  | .long name value => (kinds.find? fun k => k.name.toList == name).map (·, value)
  | .short letter [] => (kinds.find? fun k => k.letter == some letter).map (·, none)
  | .short letter rest => (kinds.find? fun k => k.letter == some letter).map (·, some rest)
  | .mark | .place => none

namespace Words

/-- Words with one more option in front; no option is set twice. -/
def set (option value : String) (w : Words) : Except UsageError Words :=
  if w.options.any fun o => o.1 == option then .error (.repeatedOption option)
  else .ok { w with options := (option, value) :: w.options }

/-- Sorts words. -/
def sort (kinds : List OptionKind) : List String → Except UsageError Words
  | [] => .ok {}
  | word :: rest =>
      match Word.ofChars word.toList with
      | .mark => .ok { places := rest }
      | .place => do
          let w ← sort kinds rest
          return { w with places := word :: w.places }
      | w =>
          match OptionKind.find? kinds w with
          | none => .error (.unknownOption word)
          | some (kind, some value) =>
              if kind.isSwitch then .error (.needlessValue kind.name)
              else sort kinds rest >>= set kind.name (String.ofList value)
          | some (kind, none) =>
              if kind.isSwitch then sort kinds rest >>= set kind.name ""
              else
                match rest with
                | [] => .error (.missingValue kind.name)
                | value :: rest => sort kinds rest >>= set kind.name value

/-- The value of an option. -/
def value? (w : Words) (option : String) : Option String :=
  (w.options.find? fun o => o.1 == option).map (·.2)

/-- Whether a switch is set. -/
def isSet (w : Words) (option : String) : Bool := (w.value? option).isSome

/-- The value of an option, read, or what it is otherwise. -/
def readOr {β : Type} (w : Words) (option : String) (read : String → Option β) (otherwise : β) :
    Except UsageError β :=
  match w.value? option with
  | none => .ok otherwise
  | some value =>
      match read value with
      | some b => .ok b
      | none => .error (.badValue option value)

end Words

/-! ## §3. Commands. -/

/-- What the program is asked to do. -/
inductive Request (α : Type) where
  | create (a : NewDocument)
  | describe (document : Path)
  | replay (a : ReplayRequest α)
  | plan (document : Path) (asJson : Bool)
  | mask (m : MaskShape) (output : Path)
  | render (a : ExportRequest)
  | check
  deriving Repr, DecidableEq

/-- A command: its name, its places and its own options. -/
structure CommandKind where
  name : String
  places : List String
  options : List OptionKind := []
  deriving Repr, DecidableEq

namespace CommandKind

/-- The option for where a result is written. -/
def output : OptionKind := { name := "output", letter := some 'o' }
/-- The option for a quality. -/
def quality : OptionKind := { name := "quality" }

/-- Every command. -/
def all : List CommandKind :=
  [⟨"init", ["SOURCE"], [output, quality, { name := "background", isSwitch := true }]⟩,
    ⟨"info", ["DOCUMENT"], []⟩,
    ⟨"replay", ["DOCUMENT", "SCRIPT"], [{ name := "canvas-width" }, { name := "canvas-height" },
      { name := "track-left" }, { name := "track-width" }, output]⟩,
    ⟨"plan", ["DOCUMENT"], [{ name := "json", isSwitch := true }]⟩,
    ⟨"mask", ["OUTPUT"], [{ name := "width" }, { name := "height" }, { name := "radius" }]⟩,
    ⟨"export", ["DOCUMENT"], [output, quality]⟩,
    ⟨"check", [], []⟩]

/-- The options of every command. -/
def shared : List OptionKind :=
  [{ name := "config" }, { name := "verbose", letter := some 'v', isSwitch := true }]

/-- One line that shows how a command is used. -/
def usage (k : CommandKind) : String :=
  "togif " ++ k.name ++ String.join (k.places.map fun p => " <" ++ p ++ ">")
    ++ String.join (k.options.map fun o =>
      if o.isSwitch then " [--" ++ o.name ++ "]" else " [--" ++ o.name ++ " VALUE]")

end CommandKind

/-- A command line that has been understood. -/
structure Invocation (α : Type) where
  /-- A configuration to be used in place of the standard one. -/
  config : Option Path
  verbose : Bool
  request : Request α
  deriving Repr, DecidableEq

/-! ## §4. Requests. -/

variable {α : Type} [Scalar α]

/-- A whole number that fits 32 bits. -/
def readWord (s : String) : Option Nat :=
  let ds := match s.toList with
    | '+' :: ds => ds
    | ds => ds
  if ds.isEmpty || !ds.all Char.isDigit then none
  else
    let n := Decimal.digitsValue 0 ds
    if n < Nat.pow 2 32 then some n else none

/-- A number. -/
def readScalar (s : String) : Option α := (Decimal.readFigure s).map (·.toScalar)

/-- The request that sorted words make of a command. -/
def Request.ofWords (kind : CommandKind) (w : Words) : Except UsageError (Request α) := do
  let output := (w.value? "output").map Path.mk
  let quality := w.value? "quality"
  match kind.name, w.places with
  | "init", [source] => return .create ⟨⟨source⟩, output, quality, w.isSet "background"⟩
  | "info", [document] => return .describe ⟨document⟩
  | "replay", [document, script] =>
      let width ← w.readOr "canvas-width" readScalar 640
      let height ← w.readOr "canvas-height" readScalar 360
      let left ← w.readOr "track-left" readScalar 100
      let length ← w.readOr "track-width" readScalar 1000
      return .replay ⟨⟨document⟩, ⟨script⟩, ⟨width, height⟩, ⟨left, length⟩, output⟩
  | "plan", [document] => return .plan ⟨document⟩ (w.isSet "json")
  | "mask", [target] =>
      let width ← w.readOr "width" readWord 600
      let height ← w.readOr "height" readWord 338
      let radius ← w.readOr "radius" readWord 16
      return .mask ⟨width, height, radius⟩ ⟨target⟩
  | "export", [document] => return .render ⟨⟨document⟩, output, quality⟩
  | "check", [] => return .check
  | _, places =>
      match kind.places.drop places.length, places.drop kind.places.length with
      | place :: _, _ => .error (.missingPlace place)
      | [], word :: _ => .error (.extraPlace word)
      | [], [] => .error (.unknownCommand kind.name)

/-- Understands a command line.  The command is the first place, so its options may
stand before it as well as behind it. -/
def Invocation.ofWords (words : List String) : Except UsageError (Invocation α) := do
  let every := CommandKind.shared ++ CommandKind.all.flatMap (·.options)
  match (← Words.sort every words).places with
  | [] => .error .noCommand
  | name :: _ =>
      match CommandKind.all.find? fun k => k.name == name with
      | none => .error (.unknownCommand name)
      | some kind =>
          let w ← Words.sort (CommandKind.shared ++ kind.options) words
          let request ← Request.ofWords kind { w with places := w.places.drop 1 }
          return ⟨(w.value? "config").map Path.mk, w.isSet "verbose", request⟩

end GifEdit
