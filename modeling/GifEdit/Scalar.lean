/-
  GifEdit.Scalar
  ──────────────
  **THE NUMBERS OF THE EDITOR.**

  Times, canvas coordinates, ratios: every quantity that is not a whole number
  is a SCALAR.  The editor is written once, over any type with the operations
  below, and is then read at two instances:

      binary floating point   — what runs
      extended rationals      — what exact reasoning is about

  Both carry an undefined value that compares false with everything, and two
  infinities, so the order below is never assumed total: a test `a ≤ b` and the
  negation of `b < a` are different tests, and definitions choose one of them.
-/
namespace GifEdit

/-! ## §1. The operations. -/

/-- The arithmetic the editor needs of its numbers. -/
class Scalar (α : Type) extends Add α, Sub α, Mul α, Div α, Neg α, LE α, LT α, BEq α where
  /-- Whether one number is at most another; false when either is undefined. -/
  decLE : DecidableLE α
  /-- Whether one number is below another; false when either is undefined. -/
  decLT : DecidableLT α
  /-- The number nearest to `digits · 10^e`, or to `digits · 10^-e` when the flag is set. -/
  ofScientific : Nat → Bool → Nat → α
  /-- Positive infinity. -/
  infinity : α
  /-- Distance from zero. -/
  abs : α → α
  /-- The nearest whole number, halves going away from zero. -/
  round : α → α
  /-- The largest whole number not above. -/
  floor : α → α
  /-- Neither undefined nor infinite. -/
  isFinite : α → Bool
  /-- The exact value of a finite number. -/
  value? : α → Option Rat
  /-- Whether the number is written with a minus sign (a zero may be, too). -/
  isNegative : α → Bool
  /-- The whole part as a natural number, at most `limit`: nothing for an
  undefined or negative number, `limit` for everything beyond it. -/
  wholeUpTo : (limit : Nat) → α → Nat

namespace Scalar

variable {α : Type} [Scalar α]

instance (priority := low) decidableLE : DecidableLE α := Scalar.decLE

instance (priority := low) decidableLT : DecidableLT α := Scalar.decLT

/-- The number with a given natural value. -/
def ofNat (n : Nat) : α := Scalar.ofScientific n false 0

instance (priority := low) literal (n : Nat) : OfNat α n := ⟨ofNat n⟩

instance (priority := low) fraction : OfScientific α := ⟨Scalar.ofScientific⟩

instance : Inhabited α := ⟨ofNat 0⟩

/-! ## §2. Selections.

An undefined operand loses against any other one, and of two equal operands the
second is kept, which decides the sign of a zero. -/

/-- Whether this is the undefined value: the one number different from itself. -/
def isUndefined (a : α) : Bool := !(a == a)

/-- The smaller of two numbers. -/
protected def min (a b : α) : α :=
  if isUndefined a then b else if isUndefined b then a else if a < b then a else b

/-- The larger of two numbers. -/
protected def max (a b : α) : α :=
  if isUndefined a then b else if isUndefined b then a else if b < a then a else b

/-- The nearest number of `[lo, hi]`; an undefined number stays undefined. -/
protected def clamp (a lo hi : α) : α :=
  if a < lo then lo else if hi < a then hi else a

/-! ## §3. Whole numbers of a fixed width. -/

/-- The largest 32-bit word. -/
def wordMax : Nat := 4294967295

/-- The largest 64-bit word. -/
def doubleWordMax : Nat := 18446744073709551615

/-- Total of a list, added from left to right onto the negative zero, which
leaves every number it is added to unchanged. -/
def total (xs : List α) : α := xs.foldl (· + ·) (-(0 : α))

end Scalar
end GifEdit
