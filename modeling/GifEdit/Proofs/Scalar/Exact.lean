/-
  GifEdit.Proofs.Scalar.Exact
  ───────────────────────────
  **FINITE EXACT NUMBERS.**

  On finite numbers the operations of the exact instance are those of the
  rationals: each lemma of §1 moves one operation below the constructor
  `rational`, and `simp` then leaves a statement about rationals.

  The editor guards its times with selections, and these are safe at undefined and
  infinite arguments too:

    * `max_min_eq`  — capped and raised, any number ends above the lower bound,
    * `min_max_eq`  — raised and capped, any number ends below the upper bound,

  and neither leaves the other bound but where the two cross.
-/
import GifEdit.Scalar.Exact
import Mathlib.Algebra.Order.Field.Rat

namespace GifEdit.Exact

/-! ## §1. Operations on finite numbers. -/

variable {p q : ℚ}

@[simp] theorem rational_add : rational p + rational q = rational (p + q) := rfl

@[simp] theorem rational_sub : rational p - rational q = rational (p - q) :=
  congrArg rational (sub_eq_add_neg p q).symm

@[simp] theorem rational_neg : -rational p = rational (-p) := rfl

@[simp] theorem rational_mul : rational p * rational q = rational (p * q) := rfl

/-- Division by anything but zero is that of the rationals. -/
theorem rational_div (h : q ≠ 0) : rational p / rational q = rational (p / q) := by
  show (if q = 0 then infinityOf p else rational (p / q)) = rational (p / q)
  rw [if_neg h]

@[simp] theorem rational_le : rational p ≤ rational q ↔ p ≤ q := decide_eq_true_iff

@[simp] theorem rational_lt : rational p < rational q ↔ p < q := decide_eq_true_iff

@[simp] theorem rational_beq : (rational p == rational q) = decide (p = q) := by
  show decide (rational p = rational q) = decide (p = q)
  simp

@[simp] theorem isUndefined_rational : Scalar.isUndefined (rational p) = false := by
  unfold Scalar.isUndefined
  simp

@[simp] theorem isFinite_rational : Scalar.isFinite (rational p) = true := rfl

/-- A literal without a point. -/
@[simp] theorem ofNat_eq (n : Nat) : (Scalar.ofNat n : Exact) = rational n := by
  show rational ((n * Nat.pow 10 0 : Nat) : ℚ) = rational n
  simp

@[simp] theorem literal_eq (n : Nat) : (@OfNat.ofNat Exact n (Scalar.literal n)) = rational n :=
  ofNat_eq n

/-- A literal with a point. -/
@[simp] theorem fraction_eq (digits e : Nat) :
    (@OfScientific.ofScientific Exact Scalar.fraction digits true e)
      = rational (digits / (10 ^ e : Nat)) := rfl

@[simp] theorem min_rational : Scalar.min (rational p) (rational q) = rational (min p q) := by
  unfold Scalar.min
  rcases lt_or_ge p q with h | h
  · simp [h, min_eq_left h.le]
  · simp [not_lt.mpr h, min_eq_right h]

@[simp] theorem max_rational : Scalar.max (rational p) (rational q) = rational (max p q) := by
  unfold Scalar.max
  rcases lt_or_ge q p with h | h
  · simp [h, max_eq_left h.le]
  · simp [not_lt.mpr h, max_eq_right h]

/-- Between bounds that do not cross, a clamp is the one of the order. -/
theorem clamp_rational {lo hi : ℚ} (h : lo ≤ hi) :
    Scalar.clamp (rational p) (rational lo) (rational hi) = rational (max lo (min p hi)) := by
  unfold Scalar.clamp
  simp only [rational_lt]
  rcases lt_or_ge p lo with hlo | hlo
  · rw [if_pos hlo, min_eq_left (hlo.le.trans h), max_eq_left hlo.le]
  · rw [if_neg (not_lt.mpr hlo)]
    rcases lt_or_ge hi p with hhi | hhi
    · rw [if_pos hhi, min_eq_right hhi.le, max_eq_right h]
    · rw [if_neg (not_lt.mpr hhi), min_eq_left hhi, max_eq_right hlo]

@[simp] theorem abs_rational : Scalar.abs (rational p) = rational |p| := by
  show rational p.abs = rational |p|
  rcases le_total 0 p with h | h
  · rw [Rat.abs_of_nonneg h, abs_of_nonneg h]
  · rw [Rat.abs_of_nonpos h, abs_of_nonpos h]

/-! ## §2. Which numbers are finite. -/

/-- The finite numbers are the rational ones. -/
theorem isFinite_iff {x : Exact} : Scalar.isFinite x = true ↔ ∃ q, x = rational q := by
  constructor
  · intro h
    cases x with
    | rational q => exact ⟨q, rfl⟩
    | undefined => exact nomatch h
    | negInfinity => exact nomatch h
    | posInfinity => exact nomatch h
  · rintro ⟨q, rfl⟩
    rfl

/-- What lies between finite numbers is finite. -/
theorem exists_of_mem {x : Exact} (hp : rational p ≤ x) (hq : x ≤ rational q) :
    ∃ r, x = rational r ∧ p ≤ r ∧ r ≤ q := by
  cases x with
  | rational r => exact ⟨r, rfl, rational_le.mp hp, rational_le.mp hq⟩
  | undefined => exact nomatch hp
  | negInfinity => exact nomatch hp
  | posInfinity => exact nomatch hq

/-- What lies between finite numbers, below the upper one, is finite too. -/
theorem exists_of_between {x : Exact} (hp : rational p ≤ x) (hq : x < rational q) :
    ∃ r, x = rational r ∧ p ≤ r ∧ r < q := by
  cases x with
  | rational r => exact ⟨r, rfl, rational_le.mp hp, rational_lt.mp hq⟩
  | undefined => exact nomatch hp
  | negInfinity => exact nomatch hp
  | posInfinity => exact nomatch hq

theorem zero_lt_rational : 0 < rational q ↔ 0 < q := by
  rw [literal_eq, rational_lt, Nat.cast_zero]

/-- A positive number is a rational or endless. -/
theorem pos_cases {x : Exact} (h : 0 < x) :
    (∃ q, x = rational q ∧ 0 < q) ∨ x = posInfinity := by
  rw [literal_eq, Nat.cast_zero] at h
  cases x with
  | rational q => exact .inl ⟨q, rfl, rational_lt.mp h⟩
  | posInfinity => exact .inr rfl
  | undefined => exact nomatch h
  | negInfinity => exact nomatch h

/-- What is positive is above zero, at infinity as well. -/
theorem not_le_of_pos {x : Exact} (h : 0 < x) : ¬ x ≤ 0 := by
  obtain ⟨q, rfl, hq⟩ | rfl := pos_cases h
  · rw [literal_eq, rational_le, Nat.cast_zero]
    exact not_le.mpr hq
  · intro hle
    exact nomatch hle

theorem posInfinity_div (h : 0 < q) : posInfinity / rational q = posInfinity := by
  show (if q < 0 then negInfinity else posInfinity) = posInfinity
  rw [if_neg (not_lt.mpr h.le)]

theorem negInfinity_div (h : 0 < q) : negInfinity / rational q = negInfinity := by
  show (if q < 0 then posInfinity else negInfinity) = negInfinity
  rw [if_neg (not_lt.mpr h.le)]

theorem posInfinity_mul (h : 0 < q) : posInfinity * rational q = posInfinity :=
  (if_neg (not_lt.mpr h.le)).trans (if_pos h)

theorem negInfinity_mul (h : 0 < q) : negInfinity * rational q = negInfinity :=
  if_pos (neg_neg_of_pos h)

/-! ## §3. Selections with any first operand.

The operand `v` may be undefined or infinite: the bounds alone decide what is left. -/

@[simp] theorem isUndefined_undefined : Scalar.isUndefined undefined = true := rfl

@[simp] theorem isUndefined_negInfinity : Scalar.isUndefined negInfinity = false := rfl

@[simp] theorem isUndefined_posInfinity : Scalar.isUndefined posInfinity = false := rfl

@[simp] theorem negInfinity_lt_rational : negInfinity < rational q := rfl

@[simp] theorem rational_lt_posInfinity : rational q < posInfinity := rfl

@[simp] theorem rational_le_posInfinity : rational q ≤ posInfinity := rfl

@[simp] theorem not_rational_lt_negInfinity : ¬ rational q < negInfinity := by
  intro h
  exact nomatch h

@[simp] theorem not_posInfinity_lt_rational : ¬ posInfinity < rational q := by
  intro h
  exact nomatch h

/-- Two caps in a row are one. -/
theorem min_min_rational (v : Exact) :
    Scalar.min (Scalar.min v (rational p)) (rational q) = Scalar.min v (rational (min p q)) := by
  cases v with
  | rational r => simp only [min_rational, min_assoc]
  | undefined => exact min_rational
  | negInfinity => simp [Scalar.min]
  | posInfinity =>
      have h (r : ℚ) : Scalar.min posInfinity (rational r) = rational r := by simp [Scalar.min]
      rw [h, h, min_rational]

/-- Capped by `hi` and then raised to `lo`. -/
theorem max_min_eq (v : Exact) (lo hi : ℚ) :
    ∃ q, Scalar.max (Scalar.min v (rational hi)) (rational lo) = rational q
      ∧ lo ≤ q ∧ q ≤ max lo hi := by
  cases v with
  | rational r =>
      refine ⟨max (min r hi) lo, by rw [min_rational, max_rational], le_max_right _ _, ?_⟩
      exact max_le ((min_le_right r hi).trans (le_max_right lo hi)) (le_max_left lo hi)
  | undefined =>
      have h : Scalar.min undefined (rational hi) = rational hi := rfl
      exact ⟨max hi lo, by rw [h, max_rational], le_max_right _ _, (max_comm hi lo).le⟩
  | negInfinity =>
      have h : Scalar.max (Scalar.min negInfinity (rational hi)) (rational lo) = rational lo := by
        simp [Scalar.min, Scalar.max]
      exact ⟨lo, h, le_rfl, le_max_left lo hi⟩
  | posInfinity =>
      have h : Scalar.min posInfinity (rational hi) = rational hi := by simp [Scalar.min]
      exact ⟨max hi lo, by rw [h, max_rational], le_max_right _ _, (max_comm hi lo).le⟩

/-- Raised to `lo` and then capped by `hi`. -/
theorem min_max_eq (v : Exact) (lo hi : ℚ) :
    ∃ q, Scalar.min (Scalar.max v (rational lo)) (rational hi) = rational q
      ∧ min lo hi ≤ q ∧ q ≤ hi := by
  cases v with
  | rational r =>
      refine ⟨min (max r lo) hi, by rw [max_rational, min_rational], ?_, min_le_right _ _⟩
      exact le_min ((min_le_left lo hi).trans (le_max_right r lo)) (min_le_right lo hi)
  | undefined =>
      have h : Scalar.max undefined (rational lo) = rational lo := rfl
      exact ⟨min lo hi, by rw [h, min_rational], le_rfl, min_le_right _ _⟩
  | negInfinity =>
      have h : Scalar.max negInfinity (rational lo) = rational lo := by simp [Scalar.max]
      exact ⟨min lo hi, by rw [h, min_rational], le_rfl, min_le_right _ _⟩
  | posInfinity =>
      have h : Scalar.min (Scalar.max posInfinity (rational lo)) (rational hi) = rational hi := by
        simp [Scalar.min, Scalar.max]
      exact ⟨hi, h, min_le_right lo hi, le_rfl⟩

end GifEdit.Exact
