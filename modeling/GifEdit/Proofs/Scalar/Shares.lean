/-
  GifEdit.Proofs.Scalar.Shares
  ────────────────────────────
  **SHARES, QUOTIENTS AND COUNTS.**

  Doubles round and exact numbers do not, but neither ever rounds past a number of its own,
  and that is all it takes to follow a share of something from the quotient that gives it to
  the count it is shown as:

      a quotient      is undefined only where an operand is, or both are infinite
      a share         between 0 and 1, of a number, is at most that number
      its rounding    is at most every whole number it was at most
      its count       grows with it, and is nothing for the undefined number

  The laws are stated once and hold for both.
-/
import GifEdit.Proofs.Scalar.Counts

namespace GifEdit

/-- Numbers whose sums, products and roundings are on the same side of a number as the
exact ones. -/
class RoundedScalar (α : Type) [Scalar α] : Prop where
  not_le_of_lt {a b : α} : a < b → ¬ b ≤ a
  le_add {a b : α} : 0 ≤ a → Scalar.isFinite a = true → 0 ≤ b → Scalar.isFinite b = true →
    a ≤ a + b
  /-- A share of a number is at most the number. -/
  mul_le {a b : α} : 0 ≤ a → a ≤ 1 → 0 ≤ b → Scalar.isFinite b = true → a * b ≤ b
  isUndefined_mul {a b : α} : Scalar.isUndefined a = true → Scalar.isUndefined (a * b) = true
  isUndefined_div {a b : α} : ¬ b ≤ 0 → (Scalar.isUndefined (a / b) = true ↔
    Scalar.isUndefined a = true ∨ Scalar.isUndefined b = true
      ∨ Scalar.isFinite a = false ∧ Scalar.isFinite b = false)
  isFinite_div {a b : α} : Scalar.isFinite a = false → Scalar.isFinite b = true →
    Scalar.isFinite (a / b) = false
  /-- Rounding passes no whole number. -/
  round_le {a : α} {n : Nat} : a ≤ Scalar.ofNat n → Scalar.round a ≤ Scalar.ofNat n
  isUndefined_round {a : α} : Scalar.isUndefined a = true →
    Scalar.isUndefined (Scalar.round a) = true
  zero_le_ofNat (n : Nat) : (0 : α) ≤ Scalar.ofNat n
  /-- Decimals of one digit and at most nine places are not negative. -/
  zero_le_ofScientific {m e : Nat} (hm : m < 10) (he : e < 10) (below : Bool) :
    (0 : α) ≤ Scalar.ofScientific m below e
  /-- Tenths are ordered by their digits. -/
  tenths_le {m n : Nat} (hn : n < 10) (h : m ≤ n) :
    (Scalar.ofScientific m true 1 : α) ≤ Scalar.ofScientific n true 1
  isFinite_ofNat {n : Nat} : n ≤ Scalar.doubleWordMax →
    Scalar.isFinite (Scalar.ofNat n : α) = true
  wholeUpTo_mono {a b : α} (limit : Nat) : a ≤ b →
    Scalar.wholeUpTo limit a ≤ Scalar.wholeUpTo limit b
  wholeUpTo_undefined {a : α} (limit : Nat) : Scalar.isUndefined a = true →
    Scalar.wholeUpTo limit a = 0
  wholeUpTo_ofNat {n : Nat} : n < 2 ^ 53 →
    Scalar.wholeUpTo Scalar.doubleWordMax (Scalar.ofNat n : α) = n
  /-- A whole part is the same when it is taken as a number again. -/
  wholeUpTo_whole (a : α) :
    Scalar.wholeUpTo Scalar.doubleWordMax
        (Scalar.ofNat (Scalar.wholeUpTo Scalar.doubleWordMax a) : α)
      = Scalar.wholeUpTo Scalar.doubleWordMax a

/-! ## §1. Exact numbers. -/

namespace Exact

theorem isUndefined_iff {x : Exact} : Scalar.isUndefined x = true ↔ x = undefined := by
  cases x with
  | undefined => exact iff_of_true rfl rfl
  | negInfinity => exact iff_of_false Bool.false_ne_true (fun h => nomatch h)
  | posInfinity => exact iff_of_false Bool.false_ne_true (fun h => nomatch h)
  | rational q =>
      rw [isUndefined_rational]
      exact iff_of_false Bool.false_ne_true (fun h => nomatch h)

/-- What is not at most zero is undefined, positive or infinite. -/
theorem cases_of_not_le {x : Exact} (h : ¬ x ≤ 0) :
    x = undefined ∨ (∃ q, x = rational q ∧ 0 < q) ∨ x = posInfinity := by
  rw [literal_eq, Nat.cast_zero] at h
  cases x with
  | undefined => exact .inl rfl
  | negInfinity => exact absurd rfl h
  | posInfinity => exact .inr (.inr rfl)
  | rational q =>
      rw [rational_le, not_le] at h
      exact .inr (.inl ⟨q, rfl, h⟩)

/-- Where the divisor is positive, a quotient is undefined if a part of it is or both are
infinite. -/
theorem isUndefined_div {x y : Exact} (hy : ¬ y ≤ 0) : Scalar.isUndefined (x / y) = true ↔
    Scalar.isUndefined x = true ∨ Scalar.isUndefined y = true
      ∨ Scalar.isFinite x = false ∧ Scalar.isFinite y = false := by
  -- The divisor is undefined, a positive number or infinite.
  rcases cases_of_not_le hy with rfl | ⟨q, rfl, hq⟩ | rfl
  · refine iff_of_true ?_ (.inr (.inl rfl))
    cases x <;> rfl
  · cases x with
    | undefined => exact iff_of_true rfl (.inl rfl)
    | rational p =>
        rw [rational_div hq.ne']
        simp
    | posInfinity =>
        rw [posInfinity_div hq]
        simp
    | negInfinity =>
        rw [negInfinity_div hq]
        simp
  · cases x with
    | undefined => exact iff_of_true rfl (.inl rfl)
    | rational p => exact iff_of_false (fun h => nomatch h) (by simp)
    | posInfinity => exact iff_of_true rfl (.inr (.inr ⟨rfl, rfl⟩))
    | negInfinity => exact iff_of_true rfl (.inr (.inr ⟨rfl, rfl⟩))

theorem wholeUpTo_mono {x y : Exact} (limit : Nat) (h : x ≤ y) :
    wholeUpTo limit x ≤ wholeUpTo limit y := by
  cases x with
  | undefined => exact Nat.zero_le _
  | negInfinity => exact Nat.zero_le _
  | posInfinity =>
      cases y with
      | posInfinity => exact le_rfl
      | undefined => exact nomatch h
      | negInfinity => exact nomatch h
      | rational q => exact nomatch h
  | rational p =>
      cases y with
      | posInfinity => exact Nat.min_le_left _ _
      | undefined => exact nomatch h
      | negInfinity => exact nomatch h
      | rational q =>
          have hfloor : ⌊p⌋ ≤ ⌊q⌋ := Int.floor_le_floor (rational_le.mp h)
          exact min_le_min_left limit (Int.toNat_le_toNat hfloor)

theorem wholeUpTo_le (limit : Nat) (x : Exact) : wholeUpTo limit x ≤ limit := by
  cases x with
  | rational q => exact Nat.min_le_left _ _
  | posInfinity => exact le_rfl
  | undefined => exact Nat.zero_le _
  | negInfinity => exact Nat.zero_le _

/-- Up to the limit a count is its own whole part. -/
theorem wholeUpTo_rational {limit n : Nat} (h : n ≤ limit) :
    wholeUpTo limit (rational n) = n := by
  show min limit (⌊(n : ℚ)⌋).toNat = n
  rw [Int.floor_natCast, Int.toNat_natCast, min_eq_right h]

/-- Rounding passes no whole number. -/
theorem roundRat_le {q : ℚ} {n : ℕ} (h : q ≤ n) : roundRat q ≤ n := by
  unfold roundRat
  by_cases hneg : q < 0
  · rw [if_pos hneg]
    have hfloor : (0 : ℤ) ≤ ⌊-q + 1 / 2⌋ := Int.floor_nonneg.mpr (by linarith)
    have hcast : (0 : ℚ) ≤ (⌊-q + 1 / 2⌋ : ℚ) := by exact_mod_cast hfloor
    have hn : (0 : ℚ) ≤ n := Nat.cast_nonneg n
    exact (neg_nonpos.mpr hcast).trans hn
  · rw [if_neg hneg]
    have hlt : ⌊q + 1 / 2⌋ < (n : ℤ) + 1 := by
      rw [Int.floor_lt]
      push_cast
      linarith
    have hle : ⌊q + 1 / 2⌋ ≤ (n : ℤ) := Int.lt_add_one_iff.mp hlt
    exact_mod_cast hle

end Exact

instance : RoundedScalar Exact where
  not_le_of_lt := Exact.onLine.not_le_of_lt
  le_add {a b} _ ha hb hfinite := by
    obtain ⟨p, rfl⟩ := Exact.isFinite_iff.mp ha
    obtain ⟨q, rfl⟩ := Exact.isFinite_iff.mp hfinite
    rw [Exact.literal_eq, Exact.rational_le, Nat.cast_zero] at hb
    rw [Exact.rational_add, Exact.rational_le]
    linarith
  mul_le {a b} ha ha1 hb hfinite := by
    rw [Exact.literal_eq] at ha ha1 hb
    obtain ⟨p, rfl, hp, hp1⟩ := Exact.exists_of_mem ha ha1
    obtain ⟨q, rfl⟩ := Exact.isFinite_iff.mp hfinite
    rw [Exact.rational_le, Nat.cast_zero] at hb
    rw [Exact.rational_mul, Exact.rational_le]
    rw [Nat.cast_one] at hp1
    exact mul_le_of_le_one_left hb hp1
  isUndefined_mul {a b} ha := by
    rw [Exact.isUndefined_iff] at ha ⊢
    rw [ha]
    cases b <;> rfl
  isUndefined_div := Exact.isUndefined_div
  isFinite_div {a b} ha hb := by
    obtain ⟨q, rfl⟩ := Exact.isFinite_iff.mp hb
    cases a with
    | undefined => rfl
    | rational p => exact nomatch ha
    | posInfinity =>
        show Scalar.isFinite (if q < 0 then Exact.negInfinity else Exact.posInfinity) = false
        split <;> rfl
    | negInfinity =>
        show Scalar.isFinite (if q < 0 then Exact.posInfinity else Exact.negInfinity) = false
        split <;> rfl
  round_le {a n} h := by
    rw [Exact.ofNat_eq] at h ⊢
    cases a with
    | undefined => exact h
    | negInfinity => exact h
    | posInfinity => exact h
    | rational q => exact Exact.rational_le.mpr (Exact.roundRat_le (Exact.rational_le.mp h))
  isUndefined_round {a} h := by
    rw [Exact.isUndefined_iff] at h
    rw [h]
    rfl
  zero_le_ofNat n := by
    rw [Exact.literal_eq, Exact.ofNat_eq, Exact.rational_le]
    exact_mod_cast Nat.zero_le n
  zero_le_ofScientific {m e} _ _ below := by
    rw [Exact.literal_eq, Nat.cast_zero]
    refine Exact.rational_le.mpr ?_
    cases below with
    | false => exact Nat.cast_nonneg _
    | true => exact div_nonneg (Nat.cast_nonneg _) (Nat.cast_nonneg _)
  tenths_le _ h := by
    refine Exact.rational_le.mpr ?_
    exact div_le_div_of_nonneg_right (Nat.cast_le.mpr h) (Nat.cast_nonneg _)
  isFinite_ofNat _ := by
    rw [Exact.ofNat_eq]
    rfl
  wholeUpTo_mono limit h := Exact.wholeUpTo_mono limit h
  wholeUpTo_undefined {a} limit h := by
    rw [Exact.isUndefined_iff] at h
    rw [h]
    rfl
  wholeUpTo_ofNat {n} hn := by
    rw [Exact.ofNat_eq]
    exact Exact.wholeUpTo_rational (hn.le.trans (by decide))
  wholeUpTo_whole a := by
    rw [Exact.ofNat_eq]
    exact Exact.wholeUpTo_rational (Exact.wholeUpTo_le _ a)

/-! ## §2. Doubles. -/

instance : RoundedScalar Float where
  not_le_of_lt := Scalar.onLine.not_le_of_lt
  le_add {a b} ha hafinite hb hbfinite := by
    obtain ⟨p, hp⟩ := Double.exists_isSize ha hafinite
    obtain ⟨q, hq⟩ := Double.exists_isSize hb hbfinite
    exact (Double.rounds_add hp hq).ge hp (le_add_of_nonneg_right hq.nonneg)
  mul_le {a b} ha ha1 hb hbfinite := by
    have hone : Double.IsSize (Scalar.ofNat 1 : Float) (1 : ℕ) := Double.isSize_ofNat (by norm_num)
    rw [Nat.cast_one] at hone
    obtain ⟨p, hp, -, hp1⟩ := Double.exists_isSize_of_mem Double.isSize_zero hone ha ha1
    obtain ⟨q, hq⟩ := Double.exists_isSize hb hbfinite
    exact (Double.rounds_mul hp hq).le hq (mul_le_of_le_one_left hq.nonneg hp1)
  isUndefined_mul := Double.isUndefined_mul
  isUndefined_div := Double.isUndefined_div
  isFinite_div := Double.isFinite_div
  round_le := Double.roundDouble_le
  isUndefined_round {a} h := by
    show Scalar.isUndefined (Scalar.roundDouble a) = true
    rw [Double.roundDouble_undefined h]
    exact h
  zero_le_ofNat := Double.zero_le_ofNat
  zero_le_ofScientific {m e} hm he below := by
    have hall : ∀ m < 10, ∀ e < 10, ∀ below : Bool,
        (0 : Float) ≤ Scalar.ofScientific m below e := by decide +kernel
    exact hall m hm e he below
  tenths_le {m n} hn h := by
    have hall : ∀ n < 10, ∀ m < n + 1,
        (Scalar.ofScientific m true 1 : Float) ≤ Scalar.ofScientific n true 1 := by decide +kernel
    exact hall n hn m (Nat.lt_succ_of_le h)
  isFinite_ofNat := Double.isFinite_ofNat
  wholeUpTo_mono limit h := min_le_min_left limit (Double.toUInt64_mono h)
  wholeUpTo_undefined {a} limit h := by
    have hneg : ¬ (0 : Float) ≤ a := (Scalar.not_le_of_undefined h 0).2
    show min limit a.toUInt64.toNat = 0
    rw [Double.toUInt64_of_not_nonneg hneg, Nat.min_zero]
  wholeUpTo_ofNat {n} hn := by
    show min Scalar.doubleWordMax (Scalar.ofNat n : Float).toUInt64.toNat = n
    rw [Double.toUInt64_ofNat hn]
    exact min_eq_right (hn.le.trans (by decide))
  wholeUpTo_whole a := by
    have hword (x : Float) :
        Scalar.wholeUpTo Scalar.doubleWordMax x = x.toUInt64.toNat :=
      min_eq_right (Nat.le_sub_one_of_lt x.toUInt64.toNat_lt)
    rw [hword, hword]
    exact Double.toUInt64_ofNat_toUInt64 a

end GifEdit
