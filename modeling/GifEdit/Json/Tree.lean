/-
  GifEdit.Json.Tree
  ─────────────────
  **WHAT A JSON TEXT SAYS, AS FAR AS IT IS ONE.**

  A decoder reports the first thing wrong with a text in reading order, and that
  may come before the place where the text stops being JSON.  So reading never
  fails: it gives a tree in which the place of the break is marked.

      cut         no value stands here; the text from here on
      stopped     reading stopped before the value, whatever was to be read
      unreadable  JSON, but no value: a number beyond the doubles, or a string
                  that is not well-formed Unicode; harmless where it is skipped

  Arrays and objects say whether their closing bracket was reached.  Object entries
  keep their order, and repeated keys are kept.
-/
import GifEdit.Decimal.Basic
import GifEdit.Json.Fault

namespace GifEdit

/-! ## §1. Numerals. -/

/-- A JSON number, as decoders tell numbers apart. -/
inductive Numeral where
  /-- A whole number of 64 bits, with or without sign, written without point and
  exponent. -/
  | whole (n : Int)
  /-- Any other number, with digits of at most 64 bits. -/
  | decimal (d : Decimal)
  deriving Repr, DecidableEq, Inhabited

/-- The scalar a numeral stands for.  Decimals are scaled, which is fast and may be off
by one place in the last bit. -/
def Numeral.toScalar {α : Type} [Scalar α] : Numeral → α
  | .whole n => (Decimal.ofInt n).toScalar
  | .decimal d => d.scaled

/-! ## §2. Trees. -/

namespace Json

/-- How an array or an object ends. -/
inductive Ending where
  /-- With its closing bracket. -/
  | closed
  /-- Where neither the bracket nor a next part stands; the text from there on.  It
  starts with the comma, if one was read. -/
  | broken (rest : List Char)
  deriving Repr, DecidableEq, Inhabited

/-- A key of an object; one that is not well-formed Unicode has no text. -/
abbrev Key := Except Fault String

end Json

/-- A JSON text, read as far as it goes. -/
inductive Json where
  | null
  | boolean (b : Bool)
  | number (n : Numeral)
  | string (s : String)
  | array (items : List Json) (ending : Json.Ending)
  | object (entries : List (Json.Key × Json)) (ending : Json.Ending)
  /-- JSON without a value. -/
  | unreadable (fault : Json.Fault)
  /-- Not JSON from here on: where a value should start. -/
  | cut (rest : List Char)
  /-- Not JSON from here on: before a value could start. -/
  | stopped (fault : Json.Fault)
  deriving Inhabited

namespace Json

/-! ## §3. Building trees. -/

/-- An array of known items. -/
def list (items : List Json) : Json := .array items .closed

/-- An object of known fields. -/
def record (fields : List (String × Json)) : Json :=
  .object (fields.map fun f => (.ok f.1, f.2)) .closed

/-- A natural number. -/
def nat (n : Nat) : Json := .number (.whole n)

/-- A scalar; JSON has no number for the undefined value and the infinities. -/
def scalar {α : Type} [Legible α] (x : α) : Json :=
  match Legible.figure x with
  | .finite d => .number (.decimal d)
  | _ => .null

/-- An optional value. -/
def optional {α : Type} (encode : α → Json) : Option α → Json
  | none => .null
  | some x => encode x

/-! ## §4. Looking into trees. -/

/-- The items of an array. -/
def items : Json → List Json
  | .array items _ => items
  | _ => []

/-- The entries of an object, without those whose key has no text. -/
def fields : Json → List (String × Json)
  | .object entries _ => entries.filterMap fun e => e.1.toOption.map (·, e.2)
  | _ => []

/-- The value of the first entry with a key. -/
def get? (v : Json) (key : String) : Option Json :=
  (v.fields.find? fun f => f.1 == key).map (·.2)

end Json
end GifEdit
