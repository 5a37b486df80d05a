/-
  GifEdit.Decimal.Fixed
  ─────────────────────
  **A FIXED NUMBER OF PLACES.**

  The exact value of a number is rounded to a multiple of `10^-places`, a half
  going to the even neighbour, and written with exactly that many places.  The
  sign is the sign of the number before rounding, so a small negative number is
  written `-0.0`.
-/
import GifEdit.Decimal.Notation

namespace GifEdit.Decimal

/-! ## §1. Rounding a quotient. -/

/-- The whole number nearest to `num / den`, a half going to the even one. -/
def roundHalfEven (num den : Nat) : Nat :=
  let q := num / den
  let r := num % den
  if 2 * r < den then q
  else if den < 2 * r then q + 1
  else if q % 2 = 0 then q else q + 1

/-! ## §2. The text. -/

/-- A natural number of units `10^-places` with its point. -/
def layFixed (places units : Nat) : List Char :=
  let ds := digitChars units
  let padded := List.replicate (places + 1 - ds.length) '0' ++ ds
  let whole := padded.take (padded.length - places)
  if places = 0 then whole else whole ++ '.' :: padded.drop (padded.length - places)

/-- The units of `10^-places` nearest to the size of a rational. -/
def unitsOf (places : Nat) (r : Rat) : Nat :=
  roundHalfEven (r.num.natAbs * Nat.pow 10 places) r.den

end GifEdit.Decimal

namespace GifEdit

/-- A number with a fixed number of places. -/
def fixedChars {α : Type} [Scalar α] (places : Nat) (x : α) : List Char :=
  match Scalar.value? x with
  | some r =>
      let size := Decimal.layFixed places (Decimal.unitsOf places r)
      if Scalar.isNegative x then '-' :: size else size
  | none =>
      if Scalar.isUndefined x then ['N', 'a', 'N']
      else if Scalar.isNegative x then ['-', 'i', 'n', 'f'] else ['i', 'n', 'f']

/-- A number with a fixed number of places, as a text. -/
def fixedText {α : Type} [Scalar α] (places : Nat) (x : α) : String :=
  String.ofList (fixedChars places x)

end GifEdit
