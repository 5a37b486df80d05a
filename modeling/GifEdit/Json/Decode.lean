/-
  GifEdit.Json.Decode
  ───────────────────
  **FROM TREES TO VALUES, FIRST PROBLEM FIRST.**

  A decoder walks a tree in the order of its text and stops at the first problem.
  Objects are decoded through a SCHEMA: the names of the fields, a state that holds
  what was found of them, and a last step that asks for what is missing and checks
  the value as a whole.

  A schema also reads an array, item by item in the order of its fields.  Unknown
  keys are ignored as long as their values are JSON.
-/
import GifEdit.Json.Break
import GifEdit.Json.Writer
import GifEdit.Text.Quoted
import GifEdit.Scalar.Binary

namespace GifEdit.Json

/-! ## §1. Problems. -/

/-- What a decoder found, named as messages name it. -/
inductive Found where
  | null
  | boolean (b : Bool)
  | whole (n : Int)
  | decimal (d : Decimal)
  | string (s : String)
  | sequence
  | map
  deriving Repr, DecidableEq

/-- The first thing wrong with a text. -/
inductive Problem where
  /-- The text is not JSON, or has a shape that no value has. -/
  | malformed (fault : Fault)
  /-- A value of another kind than expected. -/
  | wrongKind (found : Found) (expected : String)
  /-- A value of the expected kind that the type does not hold. -/
  | wrongValue (found : Found) (expected : String)
  /-- An array of the wrong length. -/
  | wrongLength (length : Nat) (expected : String)
  /-- A name that is none of the alternatives. -/
  | unknownVariant (name : String) (known : List String)
  /-- A field that must be there. -/
  | missingField (name : String)
  /-- A field that is there twice. -/
  | duplicateField (name : String)
  /-- A value that breaks a rule of its own, with the message of that rule. -/
  | refused (reason : String)
  deriving Repr, DecidableEq

/-- The shortest decimal of the double a decimal is read as. -/
def readDouble (d : Decimal) : Decimal :=
  match Legible.figure (d.scaled : Float) with
  | .finite shortest => shortest
  | _ => d

/-- The name of what was found. -/
def Found.text : Found → String
  | .null => "null"
  | .boolean b => "boolean `" ++ (if b then "true" else "false") ++ "`"
  | .whole n => "integer `" ++ String.ofList (writeNumeral (.whole n)) ++ "`"
  | .decimal d =>
      "floating point `" ++ String.ofList (writeNumeral (.decimal (readDouble d))) ++ "`"
  | .string s => "string " ++ Text.quoted s
  | .sequence => "sequence"
  | .map => "map"

/-- The alternatives of a choice. -/
def alternatives : List String → String
  | [] => "there are no variants"
  | [a] => "expected `" ++ a ++ "`"
  | [a, b] => "expected `" ++ a ++ "` or `" ++ b ++ "`"
  | names => "expected one of " ++ ", ".intercalate (names.map fun a => "`" ++ a ++ "`")

/-- The message of a problem. -/
def Problem.message : Problem → String
  | .malformed fault => fault.text
  | .wrongKind found expected => "invalid type: " ++ found.text ++ ", expected " ++ expected
  | .wrongValue found expected => "invalid value: " ++ found.text ++ ", expected " ++ expected
  | .wrongLength n expected => "invalid length " ++ toString n ++ ", expected " ++ expected
  | .unknownVariant name known => "unknown variant `" ++ name ++ "`, " ++ alternatives known
  | .missingField name => "missing field `" ++ name ++ "`"
  | .duplicateField name => "duplicate field `" ++ name ++ "`"
  | .refused reason => reason

/-- Whether the text is no JSON, whatever was to be read from it. -/
def Problem.isMalformed : Problem → Bool
  | .malformed _ => true
  | _ => false

/-- Passes if there is no fault. -/
def pass : Option Fault → Except Problem Unit
  | none => .ok ()
  | some fault => .error (.malformed fault)

/-! ## §2. Single values. -/

/-- A decoder for one type of value. -/
abbrev Decoder (α : Type) := Json → Except Problem α

/-- Reports a value of the wrong kind; a text that breaks there is malformed. -/
def mismatch {α : Type} (expected : String) : Decoder α
  | .null => .error (.wrongKind .null expected)
  | .boolean b => .error (.wrongKind (.boolean b) expected)
  | .number (.whole n) => .error (.wrongKind (.whole n) expected)
  | .number (.decimal d) => .error (.wrongKind (.decimal d) expected)
  | .string s => .error (.wrongKind (.string s) expected)
  | .array _ _ => .error (.wrongKind .sequence expected)
  | .object _ _ => .error (.wrongKind .map expected)
  | .unreadable fault | .stopped fault => .error (.malformed fault)
  | .cut rest => .error (.malformed (valueFault rest))

/-- A scalar. -/
def decodeScalar {α : Type} [Scalar α] : Decoder α
  | .number n => .ok n.toScalar
  | v => mismatch "f64" v

/-- A whole number within bounds. -/
def decodeWhole (low high : Int) (expected : String) : Decoder Int
  | .number (.whole n) =>
      if low ≤ n && n ≤ high then .ok n else .error (.wrongValue (.whole n) expected)
  | v => mismatch expected v

/-- A natural number of 32 bits. -/
def decodeWord (v : Json) : Except Problem Nat :=
  (decodeWhole 0 Scalar.wordMax "u32" v).map Int.toNat

/-- A whole number of 32 bits. -/
def decodeInteger : Decoder Int := decodeWhole (-2147483648) 2147483647 "i32"

/-- A truth value. -/
def decodeBool : Decoder Bool
  | .boolean b => .ok b
  | v => mismatch "a boolean" v

/-- A string, under the name that messages give it. -/
def decodeText (expected : String) : Decoder String
  | .string s => .ok s
  | v => mismatch expected v

/-- A string. -/
def decodeString : Decoder String := decodeText "a string"

/-- A value that may be `null`. -/
def decodeOption {α : Type} (decode : Decoder α) : Decoder (Option α)
  | .null => .ok none
  | v => (decode v).map some

/-- A list of values, as long as the array is closed after them. -/
def decodeList {α : Type} (decode : Decoder α) : Decoder (List α)
  | .array items ending => do
      let values ← items.mapM decode
      pass ending.itemFault?
      return values
  | v => mismatch "a sequence" v

/-! ## §3. Objects. -/

/-- Where a tree comes from, which changes how some faults are reported: straight from
a text, kept aside until the whole object around it was read, or made elsewhere. -/
inductive Origin where
  | text
  | kept
  | made
  deriving Repr, DecidableEq

/-- How the fields of a type are found. -/
structure Schema (σ α : Type) where
  /-- The type, as messages name it. -/
  name : String
  /-- The fields, each with whether an array may end before it. -/
  fields : List (String × Bool)
  /-- Nothing found yet. -/
  start : σ
  /-- Decodes the value of a known field. -/
  put : σ → String → Json → Except Problem σ
  /-- Asks for missing fields and checks the whole. -/
  finish : σ → Except Problem α

namespace Schema

variable {σ α : Type}

/-- Whether a name is the name of a field. -/
def knows (schema : Schema σ α) (key : String) : Bool :=
  schema.fields.any fun f => f.1 == key

/-- What an array should have been. -/
def expectedLength (schema : Schema σ α) : String :=
  let n := schema.fields.length
  schema.name ++ " with " ++ toString n ++ (if n = 1 then " element" else " elements")

/-- Walks the entries of an object; `seen` are the fields found so far. -/
def walkEntries (schema : Schema σ α) (seen : List String) (state : σ) :
    List (Key × Json) → Except Problem σ
  | [] => .ok state
  | (.error fault, _) :: _ => .error (.malformed fault)
  | (.ok key, v) :: rest =>
      if schema.knows key then
        if seen.contains key then .error (.duplicateField key)
        else do
          let state ← schema.put state key v
          walkEntries schema (key :: seen) state rest
      else do
        pass (skippedFault? v)
        walkEntries schema seen state rest

/-- Walks the items of an array beside the fields they belong to; `count` fields
stand before.  The items after the last field are left. -/
def walkItems (schema : Schema σ α) (ending : Ending) (count : Nat) (state : σ) :
    List (String × Bool) → List Json → Except Problem (σ × List Json)
  | [], items => .ok (state, items)
  | (_, optional) :: fields, [] => do
      pass ending.itemFault?
      if optional then walkItems schema ending (count + 1) state fields []
      else .error (.wrongLength count schema.expectedLength)
  | (key, _) :: fields, v :: items => do
      let state ← schema.put state key v
      walkItems schema ending (count + 1) state fields items

/-- What is wrong with items that no field takes. -/
def surplus (schema : Schema σ α) (origin : Origin) (left : List Json) : Except Problem Unit :=
  let n := schema.fields.length
  match origin, left with
  | _, [] => .ok ()
  | .text, _ => .error (.malformed .trailingText)
  | .kept, _ =>
      .error (.wrongLength (n + left.length)
        (toString n ++ (if n = 1 then " element" else " elements") ++ " in sequence"))
  | .made, _ => .error (.wrongLength (n + left.length) "fewer elements in array")

/-- Decodes an object, or an array of its fields in order. -/
def decode (schema : Schema σ α) (origin : Origin) : Decoder α
  | .object entries ending => do
      let state ← schema.walkEntries [] schema.start entries
      pass (ending.entryFault? entries.isEmpty)
      schema.finish state
  | .array items ending => do
      let (state, left) ← schema.walkItems ending 0 schema.start schema.fields items
      schema.surplus origin left
      pass ending.surplusFault?
      schema.finish state
  | v => mismatch schema.name v

end Schema

/-- The value of a field that must be there. -/
def require {α : Type} (name : String) : Option α → Except Problem α
  | none => .error (.missingField name)
  | some a => .ok a

/-! ## §4. Choices by name. -/

/-- The alternative with a name. -/
def pickName {α : Type} (choices : List (String × α)) (name : String) : Except Problem α :=
  match choices.find? (fun c => c.1 == name) with
  | some c => .ok c.2
  | none => .error (.unknownVariant name (choices.map (·.1)))

/-- Reports what stands in place of a name. -/
def mismatchName {α : Type} : Decoder α := mismatch "variant identifier"

/-- The value beside a name: `null`, or an empty object if it was kept. -/
def decodeUnit (origin : Origin) : Decoder Unit
  | .null => .ok ()
  | .object [] ending =>
      if origin = .kept then .ok () else mismatch "unit" (.object [] ending)
  | v => mismatch "unit" v

/-- An object with a name as its only key, in a text. -/
def decodeNameEntry {α : Type} (choices : List (String × α)) :
    List (Key × Json) → Ending → Except Problem α
  | [], .closed => .error (.malformed .noValue)
  | [], .broken rest => mismatchName (readText (String.ofList rest)).1
  | (.error fault, _) :: _, _ => .error (.malformed fault)
  | (.ok name, v) :: others, ending => do
      let a ← pickName choices name
      decodeUnit .text v
      match others, ending with
      | [], .closed => return a
      | [], .broken [] => .error (.malformed .endOfObject)
      | _, _ => .error (.malformed .noValue)

/-- One of the named alternatives, written as a string or as the only key of an
object whose value is `null`. -/
def decodeName {α : Type} (origin : Origin) (choices : List (String × α)) : Decoder α
  | .string name => pickName choices name
  | v =>
      match origin, v with
      | .text, .object entries ending => decodeNameEntry choices entries ending
      | .text, .stopped fault => .error (.malformed fault)
      | .text, .unreadable .numberTooLarge => .error (.malformed .noValue)
      | .text, .unreadable fault => .error (.malformed fault)
      | .text, .cut rest =>
          match rest with
          | [] | '"' :: _ => .error (.malformed (valueFault rest))
          | _ => .error (.malformed .noValue)
      | .text, _ => .error (.malformed .noValue)
      | _, .object [(.ok name, v)] _ => do
          let a ← pickName choices name
          decodeUnit origin v
          return a
      | _, .object _ _ => .error (.wrongValue .map "map with a single key")
      | _, v => mismatch "string or map" v

/-! ## §5. Whole texts. -/

/-- Decodes a text that holds one value and nothing else. -/
def decodeDocument {α : Type} (decode : Decoder α) (s : String) : Except Problem α := do
  let (tree, ends) := readText s
  let a ← decode tree
  if ends then .ok a else .error (.malformed .trailingText)

end GifEdit.Json
