/-
  GifEdit.Decimal.Shortest
  ────────────────────────
  **THE FEWEST DIGITS THAT READ BACK.**

  A finite binary number is `m · 2^q`.  The reals that round to it form an
  interval: from half way to the neighbour below to half way to the neighbour
  above, ends included exactly when `m` is even.  A decimal READS BACK if it lies
  there.  The shortest decimal is found by trying grids of 1, 2, … 17 digits and
  testing the two grid points around the value; the first grid with a hit wins, of
  two hits the closer, of two equally close the larger.

  All tests are on natural numbers, by cross-multiplication; nothing is rounded.
-/
import GifEdit.Decimal.Basic

namespace GifEdit.Decimal

/-! ## §1. Binary numbers. -/

/-- A finite non-negative binary number `m · 2^q`. -/
structure Binary where
  m : Nat
  q : Int
  /-- The gap to the number below is half the gap to the number above. -/
  narrowBelow : Bool

/-- The size of the finite double with these bits. -/
def Binary.ofBits (bits : UInt64) : Binary :=
  let field := ((bits >>> 52) &&& 0x7FF).toNat
  let fraction := (bits &&& 0xFFFFFFFFFFFFF).toNat
  if field = 0 then ⟨fraction, -1074, false⟩
  else ⟨Nat.pow 2 52 + fraction, (field : Int) - 1075, fraction = 0 && 1 < field⟩

/-- The exact value. -/
def Binary.toRat (x : Binary) : Rat :=
  ((x.m * Nat.pow 2 x.q.toNat : Nat) : Rat) / (Nat.pow 2 (-x.q).toNat : Rat)

/-! ## §2. The interval that rounds to a binary number. -/

/-- Compares `a · 10^i` with `n · 2^j`. -/
def compareScaled (a : Nat) (i : Int) (n : Nat) (j : Int) : Ordering :=
  compare (a * Nat.pow 10 i.toNat * Nat.pow 2 (-j).toNat)
    (n * Nat.pow 2 j.toNat * Nat.pow 10 (-i).toNat)

/-- Whether `digits · 10^exponent` rounds to `x`. -/
def Binary.readsBack (x : Binary) (digits : Nat) (exponent : Int) : Bool :=
  let low := if x.narrowBelow then 4 * x.m - 1 else 4 * x.m - 2
  let high := 4 * x.m + 2
  let ends := x.m % 2 = 0
  let above := compareScaled digits exponent low (x.q - 2)
  let below := compareScaled digits exponent high (x.q - 2)
  (above = .gt || (ends && above = .eq)) && (below = .lt || (ends && below = .eq))

/-! ## §3. The grids. -/

/-- The exponent of the first power of ten above `x`, within two of an estimate
from the binary logarithm. -/
def Binary.scale (x : Binary) : Int :=
  let guess : Int := ((x.m.log2 : Int) + x.q) * 30103 / 100000
  ((List.range 5).map fun (i : Nat) => guess - 1 + i).find?
    (fun k => compareScaled 1 k x.m x.q = .gt) |>.getD guess

/-- The grid point at or below `x`, in units of `10^grid`. -/
def Binary.below (x : Binary) (grid : Int) : Nat :=
  (x.m * Nat.pow 2 x.q.toNat * Nat.pow 10 (-grid).toNat)
    / (Nat.pow 2 (-x.q).toNat * Nat.pow 10 grid.toNat)

/-- The better of the two grid points around `x`, if one reads back. -/
def Binary.onGrid (x : Binary) (grid : Int) : Option (Nat × Int) :=
  let low := x.below grid
  match x.readsBack low grid, x.readsBack (low + 1) grid with
  | false, false => none
  | true, false => some (low, grid)
  | false, true => some (low + 1, grid)
  | true, true =>
      if compareScaled (2 * low + 1) grid (2 * x.m) x.q = .gt then some (low, grid)
      else some (low + 1, grid)

/-- The exact decimal value. -/
def Binary.exact (x : Binary) : Nat × Int :=
  (x.m * Nat.pow 2 x.q.toNat * Nat.pow 5 (-x.q).toNat, -((-x.q).toNat : Int))

/-- Digits and exponent of the shortest decimal that reads back. -/
def Binary.shortest (x : Binary) : Nat × Int :=
  let scale := x.scale
  ((List.range 17).findSome? fun (i : Nat) => x.onGrid (scale - 1 - i)).getD x.exact

/-! ## §4. Doubles. -/

/-- The figure of the double with these bits. -/
def figureOfBits (bits : UInt64) : Figure :=
  let negative := bits >>> 63 = 1
  if (bits >>> 52) &&& 0x7FF = 0x7FF then
    if bits &&& 0xFFFFFFFFFFFFF = 0 then .infinite negative else .undefined
  else
    let x := Binary.ofBits bits
    if x.m = 0 then .finite ⟨negative, 0, 0⟩
    else
      let (digits, exponent) := x.shortest
      .finite (normal ⟨negative, digits, exponent⟩)

end GifEdit.Decimal
