/-
  GifEdit.Scalar.Binary
  ─────────────────────
  **DOUBLES AS SCALARS.**

  The instance that runs: 64-bit binary floating point, each operation rounded
  once, to nearest.  Reading a decimal is guarded against exponents so large that
  the answer is known without computing a power.
-/
import GifEdit.Decimal.Shortest

namespace GifEdit.Scalar

/-- The double nearest to `digits · 10^±e`.  A positive number above `10^400` is
infinite and one below `10^-400` is zero. -/
def doubleOfScientific (digits : Nat) (below : Bool) (e : Nat) : Float :=
  if digits = 0 then 0
  else if below then
    if digits.log2 + 400 < e then 0 else Float.ofScientific digits true e
  else
    if 400 < e then Float.ofBits 0x7FF0000000000000 else Float.ofScientific digits false e

/-- The exact value of a finite double. -/
def doubleValue? (x : Float) : Option Rat :=
  if x.isFinite then
    let size := (Decimal.Binary.ofBits x.toBits).toRat
    some (if x.toBits >>> 63 = 1 then -size else size)
  else none

/-- The whole number nearest to a positive double below `2^52`; a half goes up.  The
difference is exact. -/
def nearestWhole (x : Float) : Float :=
  let whole := x.toUInt64
  (if x - whole.toFloat < 0.5 then whole else whole + 1).toFloat

/-- The nearest whole number, halves going away from zero.  From `2^52` on every double
is a whole number, and the sign stays, also that of a zero. -/
def roundDouble (x : Float) : Float :=
  if 0 < x ∧ x < 4503599627370496 then nearestWhole x
  else if x < 0 ∧ -4503599627370496 < x then -nearestWhole (-x)
  else x

instance double : Scalar Float where
  decLE := inferInstance
  decLT := inferInstance
  ofScientific := doubleOfScientific
  infinity := Float.ofBits 0x7FF0000000000000
  abs := Float.abs
  round := roundDouble
  floor := Float.floor
  isFinite := Float.isFinite
  value? := doubleValue?
  isNegative x := x.toBits >>> 63 = 1
  wholeUpTo limit x := min limit x.toUInt64.toNat

instance legibleDouble : Legible Float := ⟨fun x => Decimal.figureOfBits x.toBits⟩

end GifEdit.Scalar
