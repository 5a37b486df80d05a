/-
  GifEdit.Decimal.Reader
  ──────────────────────
  **NUMBERS AS EXTERNAL TOOLS PRINT THEM.**

  The media tools report durations and positions as bare texts.  Accepted is an
  optional sign followed by

      digits, with a point anywhere among or beside them, and an optional exponent
      `inf`, `infinity` or `nan`, in any case

  and nothing else: no blanks, no separators, no missing exponent digits.
-/
import GifEdit.Decimal.Basic

namespace GifEdit.Decimal

/-! ## §1. Pieces. -/

/-- The natural number a run of digits stands for, continuing from `n`. -/
def digitsValue (n : Nat) (ds : List Char) : Nat :=
  ds.foldl (fun acc c => acc * 10 + (c.toNat - '0'.toNat)) n

/-- Takes an optional sign off the front; the flag says whether it is a minus. -/
def takeSign : List Char → Bool × List Char
  | '+' :: cs => (false, cs)
  | '-' :: cs => (true, cs)
  | cs => (false, cs)

/-- Whether two texts differ at most in the case of ASCII letters. -/
def sameLetters (a b : List Char) : Bool := a.map Char.toLower == b.map Char.toLower

/-! ## §2. The grammar. -/

/-- An exponent part that must reach the end of the text; an empty text is `0`. -/
def readExponent : List Char → Option Int
  | [] => some 0
  | c :: cs =>
      if c = 'e' || c = 'E' then
        let (negative, ds) := takeSign cs
        if ds.isEmpty || !ds.all Char.isDigit then none
        else
          let e : Int := digitsValue 0 ds
          some (if negative then -e else e)
      else none

/-- A number without its sign. -/
def readSize (negative : Bool) (cs : List Char) : Option Figure :=
  if sameLetters cs "inf".toList || sameLetters cs "infinity".toList then some (.infinite negative)
  else if sameLetters cs "nan".toList then some .undefined
  else
    let whole := cs.takeWhile Char.isDigit
    let rest := cs.dropWhile Char.isDigit
    let (places, rest) := match rest with
      | '.' :: after => (after.takeWhile Char.isDigit, after.dropWhile Char.isDigit)
      | _ => ([], rest)
    if whole.isEmpty && places.isEmpty then none
    else
      (readExponent rest).map fun e =>
        .finite ⟨negative, digitsValue 0 (whole ++ places), e - places.length⟩

/-- The figure a whole text stands for. -/
def readFigure (s : String) : Option Figure :=
  let (negative, cs) := takeSign s.toList
  readSize negative cs

end GifEdit.Decimal
