/-
  GifEdit.Decimal.Notation
  ────────────────────────
  **HOW A DECIMAL IS LAID OUT.**

  The digits of a number are chosen elsewhere; here they get a point, zeros and
  perhaps an exponent.  A NOTATION records the decisions, and the editor has three
  of them:

      plain    — in messages: never an exponent, whole numbers without a point
      marked   — in listings: a point or an exponent always shows it is no integer
      json     — in saved files: like `marked`, positional one decade further down,
                 positive exponents with a plus sign
-/
import GifEdit.Decimal.Basic

namespace GifEdit.Decimal

/-! ## §1. The decisions. -/

/-- The decisions of a number format. -/
structure Notation where
  /-- Exponents of the leading digit that are written positionally, from the first
  up to but not including the second; without a range all are. -/
  positional : Option (Int × Int)
  /-- Whole numbers end in `.0`. -/
  pointZero : Bool
  /-- Positive exponents carry a plus sign. -/
  plusExponent : Bool

/-- Numbers in messages. -/
def plain : Notation where
  positional := none
  pointZero := false
  plusExponent := false

/-- Numbers in listings. -/
def marked : Notation where
  positional := some (-4, 16)
  pointZero := true
  plusExponent := false

/-- Numbers in saved files. -/
def json : Notation where
  positional := some (-5, 16)
  pointZero := true
  plusExponent := true

/-! ## §2. Layout. -/

/-- The decimal digits of a natural number, most significant first. -/
def digitChars (n : Nat) : List Char := Nat.toDigits 10 n

/-- Digits `ds` with the point `point` places after the first character of the
numeral; a whole number ends as the notation says. -/
def layPositional (n : Notation) (ds : List Char) (point : Int) : List Char :=
  let size : Int := ds.length
  if point ≤ 0 then
    '0' :: '.' :: (List.replicate (-point).toNat '0' ++ ds)
  else if size ≤ point then
    ds ++ List.replicate (point - size).toNat '0' ++ (if n.pointZero then ['.', '0'] else [])
  else
    ds.take point.toNat ++ '.' :: ds.drop point.toNat

/-- Digits `ds` with one digit before the point and the exponent `e`. -/
def layScientific (n : Notation) (ds : List Char) (e : Int) : List Char :=
  let mantissa := match ds with
    | [] => ['0']
    | [d] => [d]
    | d :: rest => d :: '.' :: rest
  let sign := if e < 0 then ['-'] else if n.plusExponent then ['+'] else []
  mantissa ++ 'e' :: (sign ++ digitChars e.natAbs)

/-- The characters of a decimal without its sign. -/
def laySize (n : Notation) (d : Decimal) : List Char :=
  let ds := digitChars d.digits
  let lead : Int := d.exponent + ds.length - 1
  let positionally := match n.positional with
    | none => true
    | some (low, high) => d.digits = 0 || (low ≤ lead && lead < high)
  if positionally then layPositional n ds (lead + 1) else layScientific n ds lead

/-- The characters of a decimal. -/
def lay (n : Notation) (d : Decimal) : List Char :=
  if d.negative then '-' :: laySize n d else laySize n d

/-- The text of a figure. -/
def Figure.text (n : Notation) : Figure → String
  | .undefined => "NaN"
  | .infinite negative => if negative then "-inf" else "inf"
  | .finite d => String.ofList (lay n d)

end GifEdit.Decimal

namespace GifEdit

/-! ## §3. Scalars as text. -/

/-- A number as messages show it. -/
def plainText {α : Type} [Legible α] (x : α) : String := (Legible.figure x).text Decimal.plain

/-- A number as listings show it. -/
def markedText {α : Type} [Legible α] (x : α) : String := (Legible.figure x).text Decimal.marked

/-- An optional number as listings show it. -/
def optionText {α : Type} [Legible α] : Option α → String
  | none => "None"
  | some x => "Some(" ++ markedText x ++ ")"

end GifEdit
