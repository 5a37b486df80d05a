/-
  GifEdit.Decimal.Basic
  ─────────────────────
  **SIGNED DECIMAL NUMERALS.**

  A decimal is a sign, a natural number of digits and a power of ten.  It is what
  a written number says before it is rounded to the numbers of a machine, and what
  a machine number is turned into before it is written.  One numeral has many
  decimals (`2.50` and `2.5`); `normal` picks the one without trailing zeros.
-/
import GifEdit.Scalar

namespace GifEdit

/-- `digits · 10^exponent`, below zero if `negative`. -/
structure Decimal where
  negative : Bool
  digits : Nat
  exponent : Int
  deriving Repr, DecidableEq, Inhabited

namespace Decimal

/-! ## §1. The value. -/

/-- The rational number a decimal stands for. -/
def toRat (d : Decimal) : Rat :=
  let size : Rat :=
    (d.digits * Nat.pow 10 d.exponent.toNat : Nat) / (Nat.pow 10 (-d.exponent).toNat : Nat)
  if d.negative then -size else size

/-! ## §2. Trailing zeros. -/

/-- Moves up to `fuel` trailing zeros of the digits into the exponent. -/
def stripZeros : (fuel : Nat) → Nat → Int → Nat × Int
  | 0, n, e => (n, e)
  | fuel + 1, n, e => if n % 10 = 0 then stripZeros fuel (n / 10) (e + 1) else (n, e)

/-- The same value without trailing zeros; zero has exponent zero. -/
def normal (d : Decimal) : Decimal :=
  if d.digits = 0 then { d with exponent := 0 }
  else
    let (n, e) := stripZeros (d.digits.log2 + 1) d.digits d.exponent
    { d with digits := n, exponent := e }

/-- The decimal of a whole number. -/
def ofInt (n : Int) : Decimal := ⟨n < 0, n.natAbs, 0⟩

/-! ## §3. Figures: decimals and the values that have none. -/

/-- What a number looks like in writing. -/
inductive Figure where
  /-- The undefined value. -/
  | undefined
  /-- An infinity and its sign. -/
  | infinite (negative : Bool)
  /-- A decimal. -/
  | finite (d : Decimal)
  deriving Repr, DecidableEq, Inhabited

/-! ## §4. From decimals to scalars. -/

/-- The scalar nearest to a decimal. -/
def toScalar {α : Type} [Scalar α] (d : Decimal) : α :=
  let size : α := Scalar.ofScientific d.digits (d.exponent < 0) d.exponent.natAbs
  if d.negative then -size else size

/-- A power of ten. -/
def tenTo {α : Type} [Scalar α] (e : Nat) : α := Scalar.ofScientific 1 false e

/-- The largest power of ten among the doubles. -/
def maxPower : Nat := 308

/-- A number divided by `10^e`, by no more than the largest power at a time; a zero is
left as it is. -/
def descend {α : Type} [Scalar α] (x : α) (e : Nat) : α :=
  if e ≤ maxPower then x / tenTo e
  else if x == 0 then x
  else descend (x / tenTo maxPower) (e - maxPower)
termination_by e
decreasing_by simp only [maxPower] at *; omega

/-- The scalar of a decimal by scaling: its digits, rounded, times or over a power of
ten, rounded again.  Exact where the digits and the power are; otherwise it may be a
neighbor of the nearest scalar. -/
def scaled {α : Type} [Scalar α] (d : Decimal) : α :=
  let size : α :=
    if d.digits = 0 then 0
    else if d.exponent < 0 then descend (Scalar.ofNat d.digits) d.exponent.natAbs
    else Scalar.ofNat d.digits * tenTo d.exponent.natAbs
  if d.negative then -size else size

/-- The scalar a figure stands for. -/
def Figure.toScalar {α : Type} [Scalar α] : Figure → α
  | .undefined => Scalar.infinity - Scalar.infinity
  | .infinite negative => if negative then -Scalar.infinity else Scalar.infinity
  | .finite d => d.toScalar

end Decimal

/-- Scalars that can be written down: `figure x` is the shortest decimal that is
closer to `x` than to any other scalar. -/
class Legible (α : Type) where
  /-- What the number looks like in writing. -/
  figure : α → Decimal.Figure

end GifEdit
