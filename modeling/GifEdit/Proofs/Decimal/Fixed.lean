/-
  GifEdit.Proofs.Decimal.Fixed
  ────────────────────────────
  **A NUMBER WITH PLACES IS READ BACK ROUNDED.**

  A number is written with a fixed number of places in two steps, and each is met once:

      value  ──▶  units of the last place    at most half a unit is lost
      units  ──▶  digits with a point        nothing is lost

  What is written is PLAIN: digits, and a point with further digits if there are any.  A
  plain text is read as the number that its digits make without the point, so many places
  down; so zeros behind the last digit may be dropped.
-/
import GifEdit.Decimal.Fixed
import GifEdit.Decimal.Reader
import GifEdit.Proofs.Json.Numbers
import GifEdit.Proofs.Scalar.Laws
import Mathlib.Data.List.TakeWhile
import Mathlib.Data.Rat.Lemmas
import Mathlib.Tactic.FieldSimp
import Mathlib.Tactic.Linarith
import Mathlib.Tactic.Positivity
import Mathlib.Tactic.Ring

namespace GifEdit.Decimal

/-! ## §1. Rounding. -/

/-- Twice over, so that the half is a whole number. -/
theorem roundHalfEven_bounds (num : Nat) {den : Nat} (h : 0 < den) :
    2 * (roundHalfEven num den * den) ≤ 2 * num + den
      ∧ 2 * num ≤ 2 * (roundHalfEven num den * den) + den := by
  have hnum : num / den * den + num % den = num := Nat.div_add_mod' num den
  have hrest : num % den < den := Nat.mod_lt num h
  have hup : (num / den + 1) * den = num / den * den + den := Nat.succ_mul _ _
  unfold roundHalfEven
  dsimp only
  -- Down below the half, up above it.
  by_cases hless : 2 * (num % den) < den
  · rw [if_pos hless]
    omega
  · rw [if_neg hless]
    by_cases hmore : den < 2 * (num % den)
    · rw [if_pos hmore, hup]
      omega
    · -- Half way both neighbours are as near.
      rw [if_neg hmore]
      by_cases heven : num / den % 2 = 0
      · rw [if_pos heven]
        omega
      · rw [if_neg heven, hup]
        omega

/-- **Half a unit is lost at most.** -/
theorem roundHalfEven_error (num : Nat) {den : Nat} (h : 0 < den) :
    |(roundHalfEven num den : ℚ) - num / den| ≤ 1 / 2 := by
  have hden : (0 : ℚ) < den := Nat.cast_pos.mpr h
  obtain ⟨hlow, hhigh⟩ := roundHalfEven_bounds num h
  have hlow' : 2 * ((roundHalfEven num den : ℚ) * den) ≤ 2 * num + den := by exact_mod_cast hlow
  have hhigh' : 2 * (num : ℚ) ≤ 2 * (roundHalfEven num den * den) + den := by exact_mod_cast hhigh
  have hnum : (num : ℚ) / den * den = num := div_mul_cancel₀ _ hden.ne'
  rw [abs_le]
  constructor
  · refine le_of_mul_le_mul_right ?_ hden
    linarith
  · refine le_of_mul_le_mul_right ?_ hden
    linarith

/-- A number rounded to places, a half going to the even neighbour. -/
def rounded (places : Nat) (r : ℚ) : ℚ :=
  let size := (unitsOf places r : ℚ) / 10 ^ places
  if r < 0 then -size else size

theorem unitsOf_error (places : Nat) (r : ℚ) :
    |(unitsOf places r : ℚ) - |r| * 10 ^ places| ≤ 1 / 2 := by
  have herror := roundHalfEven_error (r.num.natAbs * 10 ^ places) r.den_pos
  have hsize : ((r.num.natAbs * 10 ^ places : ℕ) : ℚ) / r.den = |r| * 10 ^ places := by
    rw [Rat.abs_def, Rat.divInt_eq_div]
    push_cast
    rw [Nat.cast_natAbs, Int.cast_abs]
    ring
  rw [hsize] at herror
  exact herror

/-- **Rounding moves a number by half of the last place at most.** -/
theorem rounded_error (places : Nat) (r : ℚ) :
    |rounded places r - r| ≤ 1 / 2 / 10 ^ places := by
  have hplaces : (0 : ℚ) < 10 ^ places := by positivity
  have hsize : |(unitsOf places r : ℚ) / 10 ^ places - (|r|)| ≤ 1 / 2 / 10 ^ places := by
    have herror := div_le_div_of_nonneg_right (unitsOf_error places r) hplaces.le
    rw [← abs_of_pos hplaces, ← abs_div, abs_of_pos hplaces, sub_div,
      mul_div_cancel_right₀ _ hplaces.ne'] at herror
    exact herror
  unfold rounded
  dsimp only
  -- Rounding is done on the size, and both sides of zero have the same error.
  by_cases hr : r < 0
  · rw [if_pos hr]
    rw [abs_of_neg hr] at hsize
    rw [← abs_neg]
    have hflip : -(-((unitsOf places r : ℚ) / 10 ^ places) - r)
        = (unitsOf places r : ℚ) / 10 ^ places - -r := by ring
    rw [hflip]
    exact hsize
  · rw [if_neg hr]
    rw [abs_of_nonneg (not_lt.mp hr)] at hsize
    exact hsize

/-- Numbers further apart than the last place stay apart. -/
theorem rounded_lt_rounded {places : Nat} {p q : ℚ} (h : p + 1 / 10 ^ places < q) :
    rounded places p < rounded places q := by
  have hhalves : (1 : ℚ) / 10 ^ places = 1 / 2 / 10 ^ places + 1 / 2 / 10 ^ places := by ring
  have hp := (abs_le.mp (rounded_error places p)).2
  have hq := (abs_le.mp (rounded_error places q)).1
  linarith

/-! ## §2. Digits with a point. -/

theorem digitsValue_append (n : Nat) (ds more : List Char) :
    digitsValue n (ds ++ more) = digitsValue (digitsValue n ds) more := List.foldl_append

/-- Zeros in front of digits say nothing. -/
theorem digitsValue_zeros (k : Nat) (ds : List Char) :
    digitsValue 0 (List.replicate k '0' ++ ds) = digitsValue 0 ds := by
  induction k with
  | zero => rfl
  | succ k ih =>
      rw [List.replicate_succ, List.cons_append]
      exact ih

/-- Each zero behind digits makes ten times as much of them. -/
theorem digitsValue_append_zeros (n : Nat) (ds : List Char) (k : Nat) :
    digitsValue n (ds ++ List.replicate k '0') = digitsValue n ds * 10 ^ k := by
  induction k with
  | zero => simp
  | succ k ih =>
      rw [List.replicate_succ', ← List.append_assoc, digitsValue_append, ih]
      show digitsValue n ds * 10 ^ k * 10 + 0 = _
      rw [Nat.add_zero, Nat.pow_succ, Nat.mul_assoc]

/-- **Units are written as their digits**, of which so many stand behind the point. -/
theorem layFixed_eq {places : Nat} (hplaces : 0 < places) (units : Nat) : ∃ whole tail,
    layFixed places units = whole ++ '.' :: tail ∧ whole ≠ [] ∧ tail.length = places
      ∧ (∀ c ∈ whole ++ tail, c.isDigit = true) ∧ digitsValue 0 (whole ++ tail) = units := by
  unfold layFixed
  dsimp only
  rw [if_neg hplaces.ne']
  -- Zeros in front of the digits make room for one digit before the point.
  generalize hpadded : List.replicate (places + 1 - (digitChars units).length) '0'
    ++ digitChars units = padded
  have hlength : places + 1 ≤ padded.length := by
    rw [← hpadded, List.length_append, List.length_replicate]
    omega
  refine ⟨_, _, rfl, ?_, ?_, ?_, ?_⟩
  · rw [← List.length_pos_iff, List.length_take]
    omega
  · rw [List.length_drop]
    omega
  · rw [List.take_append_drop, ← hpadded]
    intro c hc
    rcases List.mem_append.mp hc with hc | hc
    · rw [List.eq_of_mem_replicate hc]
      rfl
    · exact Json.isDigit_of_mem_digitChars hc
  · rw [List.take_append_drop, ← hpadded, digitsValue_zeros]
    exact Json.digitsValue_digitChars units

/-! ## §3. Plain texts. -/

/-- Digits, and a point with further digits if there are any. -/
def plainChars (whole tail : List Char) : List Char :=
  if tail.isEmpty then whole else whole ++ '.' :: tail

/-- A number in digits, at least one of them in front of the point: no sign, no exponent. -/
def IsPlain (cs : List Char) : Prop :=
  ∃ whole tail, cs = plainChars whole tail ∧ whole ≠ []
    ∧ ∀ c ∈ whole ++ tail, c.isDigit = true

theorem isPlain_plainChars {whole tail : List Char} (hwhole : whole ≠ [])
    (hdigits : ∀ c ∈ whole ++ tail, c.isDigit = true) : IsPlain (plainChars whole tail) :=
  ⟨whole, tail, rfl, hwhole, hdigits⟩

/-- A plain text begins with a digit. -/
theorem IsPlain.exists_cons {cs : List Char} (h : IsPlain cs) :
    ∃ c more, cs = c :: more ∧ c.isDigit = true := by
  obtain ⟨whole, tail, rfl, hwhole, hdigits⟩ := h
  obtain ⟨c, more, rfl⟩ := List.exists_cons_of_ne_nil hwhole
  unfold plainChars
  split
  · exact ⟨c, more, rfl, hdigits c List.mem_cons_self⟩
  · exact ⟨c, more ++ '.' :: tail, rfl, hdigits c List.mem_cons_self⟩

theorem toLower_of_isDigit {c : Char} (h : c.isDigit = true) : c.toLower = c := by
  unfold Char.isDigit at h
  simp only [ge_iff_le, Bool.and_eq_true, decide_eq_true_eq] at h
  unfold Char.toLower
  refine dif_neg fun hupper => ?_
  have hbetween : 'A'.val ≤ '9'.val := UInt32.le_trans hupper.1 h.2
  exact absurd hbetween (by decide)

/-- What begins with a digit is no name. -/
theorem sameLetters_of_isDigit {c d : Char} {cs ds : List Char} (hc : c.isDigit = true)
    (hd : d.toLower.isDigit = false) : sameLetters (c :: cs) (d :: ds) = false := by
  unfold sameLetters
  rw [List.map_cons, List.map_cons, List.cons_beq_cons, toLower_of_isDigit hc]
  have hne : c ≠ d.toLower := by
    rintro rfl
    rw [hd] at hc
    exact nomatch hc
  rw [beq_false_of_ne hne, Bool.false_and]

/-- **A plain text is read as its digits**, so many places down. -/
theorem readSize_plainChars (negative : Bool) {whole tail : List Char} (hwhole : whole ≠ [])
    (hdigits : ∀ c ∈ whole ++ tail, c.isDigit = true) :
    readSize negative (plainChars whole tail)
      = some (.finite ⟨negative, digitsValue 0 (whole ++ tail), -(tail.length : Int)⟩) := by
  have hfront : ∀ c ∈ whole, c.isDigit = true := fun c hc => hdigits c (List.mem_append_left _ hc)
  have htail : ∀ c ∈ tail, c.isDigit = true := fun c hc => hdigits c (List.mem_append_right _ hc)
  have hnames : ∀ {d : Char} {ds : List Char}, d.toLower.isDigit = false →
      sameLetters (plainChars whole tail) (d :: ds) = false := by
    intro d ds hd
    obtain ⟨c, more, hplain, hc⟩ := (isPlain_plainChars hwhole hdigits).exists_cons
    rw [hplain]
    exact sameLetters_of_isDigit hc hd
  -- None of the names that a figure may be.
  have hinf : sameLetters (plainChars whole tail) "inf".toList = false := hnames (by decide)
  have hinfinity : sameLetters (plainChars whole tail) "infinity".toList = false :=
    hnames (by decide)
  have hnan : sameLetters (plainChars whole tail) "nan".toList = false := hnames (by decide)
  unfold readSize
  rw [hinf, hinfinity, hnan]
  unfold plainChars
  cases tail with
  | nil =>
      have htake : whole.takeWhile Char.isDigit = whole := List.takeWhile_eq_self_iff.mpr hfront
      have hdrop : whole.dropWhile Char.isDigit = [] := List.dropWhile_eq_nil_iff.mpr hfront
      simp [htake, hdrop, hwhole, readExponent]
  | cons c cs =>
      have hpoint : ('.' : Char).isDigit = false := by decide
      have htake : (c :: cs).takeWhile Char.isDigit = c :: cs :=
        List.takeWhile_eq_self_iff.mpr htail
      have hdrop : (c :: cs).dropWhile Char.isDigit = [] := List.dropWhile_eq_nil_iff.mpr htail
      simp [List.takeWhile_append_of_pos hfront, List.dropWhile_append_of_pos hfront, htake,
        hdrop, hpoint, readExponent]

/-- The number that digits make, so many of them behind the point. -/
theorem toRat_places (negative : Bool) (digits k : Nat) :
    Decimal.toRat ⟨negative, digits, -(k : Int)⟩
      = if negative then -((digits : ℚ) / 10 ^ k) else (digits : ℚ) / 10 ^ k := by
  have hdown : (-(k : Int)).toNat = 0 := Int.toNat_neg_natCast k
  unfold toRat
  dsimp only
  rw [hdown, Int.neg_neg, Int.toNat_natCast]
  simp

end GifEdit.Decimal

/-! ## §4. Numbers with a value. -/

namespace GifEdit

/-- Numbers whose finite ones have a value, of the sign that they are written with. -/
class ValuedScalar (α : Type) [Scalar α] : Prop where
  exists_value {x : α} : Scalar.isFinite x = true → ∃ r, Scalar.value? x = some r
  nonpos {x : α} {r : ℚ} : Scalar.value? x = some r → Scalar.isNegative x = true → r ≤ 0
  nonneg {x : α} {r : ℚ} : Scalar.value? x = some r → Scalar.isNegative x = false → 0 ≤ r

instance : ValuedScalar Exact where
  exists_value h := by
    obtain ⟨q, rfl⟩ := Exact.isFinite_iff.mp h
    exact ⟨q, rfl⟩
  nonpos {x r} hvalue hsign := by
    cases x with
    | rational q =>
        obtain rfl := Option.some.inj hvalue
        exact (of_decide_eq_true hsign).le
    | _ => exact nomatch hvalue
  nonneg {x r} hvalue hsign := by
    cases x with
    | rational q =>
        obtain rfl := Option.some.inj hvalue
        exact not_lt.mp (of_decide_eq_false hsign)
    | _ => exact nomatch hvalue

theorem Decimal.Binary.toRat_nonneg (x : Decimal.Binary) : 0 ≤ x.toRat := by
  unfold toRat
  positivity

theorem Scalar.doubleValue?_eq_some {x : Float} {r : ℚ} (h : Scalar.value? x = some r) :
    r = if Scalar.isNegative x then -(Decimal.Binary.ofBits x.toBits).toRat
      else (Decimal.Binary.ofBits x.toBits).toRat := by
  change doubleValue? x = some r at h
  unfold doubleValue? at h
  by_cases hfinite : x.isFinite = true
  · rw [if_pos hfinite] at h
    rw [← Option.some.inj h]
    show _ = if decide (x.toBits >>> 63 = 1) = true then _ else _
    simp only [decide_eq_true_eq]
  · rw [if_neg hfinite] at h
    exact nomatch h

/-- The sign of a double is a bit of its own, beside its size. -/
instance : ValuedScalar Float where
  exists_value h := ⟨_, if_pos h⟩
  nonpos {x r} hvalue hsign := by
    rw [Scalar.doubleValue?_eq_some hvalue, if_pos hsign, neg_nonpos]
    exact Decimal.Binary.toRat_nonneg _
  nonneg {x r} hvalue hsign := by
    rw [Scalar.doubleValue?_eq_some hvalue, hsign, if_neg Bool.false_ne_true]
    exact Decimal.Binary.toRat_nonneg _

variable {α : Type} [Scalar α]

theorem fixedChars_eq {x : α} {r : ℚ} (h : Scalar.value? x = some r) (places : Nat) :
    fixedChars places x = (if Scalar.isNegative x then ['-'] else [])
      ++ Decimal.layFixed places (Decimal.unitsOf places r) := by
  unfold fixedChars
  rw [h]
  cases Scalar.isNegative x with
  | false => rfl
  | true => rfl

end GifEdit
