/-
  GifEdit.Scalar.Exact
  ────────────────────
  **EXTENDED RATIONALS AS SCALARS.**

  The instance that exact reasoning is about: finite numbers are rationals and
  every operation on them is exact; the undefined value and the two infinities
  behave as they do for doubles.  There is one zero, so a quotient by zero takes
  its sign from the dividend alone.
-/
import GifEdit.Scalar

namespace GifEdit

/-- A rational number, an infinity, or the undefined value. -/
inductive Exact where
  /-- The undefined value. -/
  | undefined
  /-- Below every rational. -/
  | negInfinity
  /-- A rational number. -/
  | rational (q : Rat)
  /-- Above every rational. -/
  | posInfinity
  deriving DecidableEq, Inhabited

namespace Exact

/-! ## §1. Arithmetic. -/

/-- The infinity with the sign of a nonzero rational. -/
def infinityOf (q : Rat) : Exact :=
  if q < 0 then negInfinity else if 0 < q then posInfinity else undefined

/-- Change of sign. -/
def neg : Exact → Exact
  | undefined => undefined
  | negInfinity => posInfinity
  | rational q => rational (-q)
  | posInfinity => negInfinity

/-- Sum; opposite infinities have none. -/
def add : Exact → Exact → Exact
  | rational a, rational b => rational (a + b)
  | undefined, _ | _, undefined => undefined
  | posInfinity, negInfinity | negInfinity, posInfinity => undefined
  | posInfinity, _ | _, posInfinity => posInfinity
  | negInfinity, _ | _, negInfinity => negInfinity

/-- Product; zero times an infinity is undefined. -/
def mul : Exact → Exact → Exact
  | rational a, rational b => rational (a * b)
  | undefined, _ | _, undefined => undefined
  | posInfinity, rational b | rational b, posInfinity => infinityOf b
  | negInfinity, rational b | rational b, negInfinity => infinityOf (-b)
  | posInfinity, posInfinity | negInfinity, negInfinity => posInfinity
  | posInfinity, negInfinity | negInfinity, posInfinity => negInfinity

/-- Quotient; zero by zero and infinity by infinity are undefined. -/
def div : Exact → Exact → Exact
  | rational a, rational b => if b = 0 then infinityOf a else rational (a / b)
  | undefined, _ | _, undefined => undefined
  | rational _, _ => rational 0
  | posInfinity, rational b => if b < 0 then negInfinity else posInfinity
  | negInfinity, rational b => if b < 0 then posInfinity else negInfinity
  | _, _ => undefined

/-! ## §2. Order. -/

/-- At most; false when either side is undefined. -/
def le : Exact → Exact → Bool
  | undefined, _ | _, undefined => false
  | negInfinity, _ | _, posInfinity => true
  | rational a, rational b => decide (a ≤ b)
  | _, _ => false

/-- Below; false when either side is undefined. -/
def lt : Exact → Exact → Bool
  | undefined, _ | _, undefined => false
  | rational a, rational b => decide (a < b)
  | negInfinity, negInfinity | posInfinity, posInfinity => false
  | negInfinity, _ | _, posInfinity => true
  | _, _ => false

/-- Equal; false when either side is undefined. -/
def eq : Exact → Exact → Bool
  | undefined, _ | _, undefined => false
  | a, b => decide (a = b)

/-! ## §3. Rounding. -/

/-- The nearest whole number, halves going away from zero. -/
def roundRat (q : Rat) : Rat :=
  if q < 0 then -((-q + 1 / 2).floor : Rat) else ((q + 1 / 2).floor : Rat)

/-- Applies an operation to the finite numbers. -/
def onRational (f : Rat → Rat) : Exact → Exact
  | rational q => rational (f q)
  | x => x

/-- Distance from zero. -/
def abs : Exact → Exact
  | rational q => rational q.abs
  | negInfinity => posInfinity
  | x => x

/-- The whole part as a natural number, at most `limit`. -/
def wholeUpTo (limit : Nat) : Exact → Nat
  | rational q => Nat.min limit q.floor.toNat
  | posInfinity => limit
  | _ => 0

/-! ## §4. The instance. -/

instance : LE Exact := ⟨fun a b => a.le b = true⟩

instance : LT Exact := ⟨fun a b => a.lt b = true⟩

instance scalar : Scalar Exact where
  add := add
  sub a b := add a (neg b)
  mul := mul
  div := div
  neg := neg
  beq := eq
  decLE a b := inferInstanceAs (Decidable (a.le b = true))
  decLT a b := inferInstanceAs (Decidable (a.lt b = true))
  ofScientific m below e :=
    rational (if below then (m : Rat) / (Nat.pow 10 e : Nat) else (m * Nat.pow 10 e : Nat))
  infinity := posInfinity
  abs := abs
  round := onRational roundRat
  floor := onRational fun q => (q.floor : Rat)
  isFinite
    | rational _ => true
    | _ => false
  value?
    | rational q => some q
    | _ => none
  isNegative
    | rational q => decide (q < 0)
    | negInfinity => true
    | _ => false
  wholeUpTo := wholeUpTo

end Exact
end GifEdit
