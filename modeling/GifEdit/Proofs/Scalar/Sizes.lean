/-
  GifEdit.Proofs.Scalar.Sizes
  ───────────────────────────
  **ROUNDING MANTISSAS.**

  A double that is neither undefined nor infinite is a mantissa `m` of 53 bits and an
  exponent `e`, and its size is `m · 2^e`.  An operation computes a longer mantissa, shifts
  the bits that do not fit out at its end and rounds what is left to even.  Of all that the
  laws of doubles need one consequence:

      rounding passes no double       (`rounded_between`)

  A number at most a given double is rounded to a number at most that double, and the same
  on the other side.
-/
import Mathlib.Tactic.Linarith
import Mathlib.Tactic.Ring
import Mathlib.Algebra.Order.Field.Power
import Mathlib.Algebra.Order.Floor.Semifield
import Mathlib.Algebra.Order.Ring.Rat
import Mathlib.Data.Rat.Floor

namespace GifEdit.Double

open Float.Model (Format UnpackedFloat totalExponent)
open Float.Model.UnpackedFloat

/-! ## §1. Sizes. -/

/-- The size of a binary number. -/
def size (m : ℕ) (e : ℤ) : ℚ := m * 2 ^ e

/-- Mantissa and exponent of a double: all 53 bits are used above the least exponent. -/
structure Canonical (m : ℕ) (e : ℤ) : Prop where
  bits : m < 2 ^ 53
  least : -1074 ≤ e
  full : 2 ^ 52 ≤ m ∨ e = -1074

variable {m n : ℕ} {e f : ℤ}

theorem size_nonneg (m : ℕ) (e : ℤ) : 0 ≤ size m e := by
  unfold size
  positivity

theorem size_pos (hm : 0 < m) (e : ℤ) : 0 < size m e := by
  unfold size
  positivity

theorem size_zero (e : ℤ) : size 0 e = 0 := by
  unfold size
  rw [Nat.cast_zero, zero_mul]

theorem size_natCast (m : ℕ) : size m 0 = m := by
  unfold size
  rw [zpow_zero, mul_one]

theorem size_mul (m n : ℕ) (e f : ℤ) : size (m * n) (e + f) = size m e * size n f := by
  unfold size
  rw [zpow_add₀ two_ne_zero]
  push_cast
  ring

/-- At one exponent sizes are ordered as mantissas are. -/
theorem size_le_size : size m e ≤ size n e ↔ m ≤ n := by
  unfold size
  rw [mul_le_mul_iff_left₀ (by positivity), Nat.cast_le]

/-- Bits move between mantissa and exponent. -/
theorem size_shift (m : ℕ) (e : ℤ) (k : ℕ) : size (m * 2 ^ k) e = size m (e + k) := by
  unfold size
  rw [zpow_add₀ two_ne_zero, zpow_natCast]
  push_cast
  ring

/-- A mantissa is worth more at a higher exponent. -/
theorem size_mono (m : ℕ) (h : e ≤ f) : size m e ≤ size m f := by
  unfold size
  exact mul_le_mul_of_nonneg_left (zpow_le_zpow_right₀ one_le_two h) (Nat.cast_nonneg m)

/-- A double of a lower exponent is smaller. -/
theorem Canonical.size_lt (h : Canonical m e) (h' : Canonical n f) (hlt : e < f) :
    size m e < size n f := by
  have hfull : 2 ^ 52 ≤ n := h'.full.resolve_right (by have := h.least; omega)
  calc size m e < size (2 ^ 53) e := by
        unfold size
        exact mul_lt_mul_of_pos_right (by exact_mod_cast h.bits) (by positivity)
    _ = size (2 ^ 52) (e + 1) := size_shift (2 ^ 52) e 1
    _ ≤ size (2 ^ 52) f := size_mono _ hlt
    _ ≤ size n f := size_le_size.mpr hfull

/-- A double has one mantissa and one exponent. -/
theorem Canonical.unique (h : Canonical m e) (h' : Canonical n f) (heq : size m e = size n f) :
    e = f ∧ m = n := by
  have hef : e = f := by
    rcases lt_trichotomy e f with hlt | hef | hgt
    · exact absurd heq (h.size_lt h' hlt).ne
    · exact hef
    · exact absurd heq (h'.size_lt h hgt).ne'
  refine ⟨hef, ?_⟩
  rw [hef] at heq
  exact le_antisymm (size_le_size.mp heq.le) (size_le_size.mp heq.ge)

/-- Doubles compare by their exponents and then by their mantissas. -/
theorem Canonical.compare_isLE (h : Canonical m e) (h' : Canonical n f) :
    ((compare e f).then (compare m n)).isLE = true ↔ size m e ≤ size n f := by
  rcases lt_trichotomy e f with hlt | rfl | hgt
  · rw [compare_lt_iff_lt.mpr hlt]
    exact iff_of_true rfl (h.size_lt h' hlt).le
  · rw [compare_eq_iff_eq.mpr rfl, size_le_size]
    exact Nat.isLE_compare
  · rw [compare_gt_iff_gt.mpr hgt]
    exact iff_of_false Bool.false_ne_true (not_le.mpr (h'.size_lt h hgt))

/-- From `2^53` on there is no room for bits below the point. -/
theorem Canonical.eq_floor (h : Canonical m e) (hbig : 2 ^ 53 ≤ size m e) :
    size m e = ⌊size m e⌋₊ := by
  have he : 0 ≤ e := by
    by_contra hneg
    have hlt : size m e < 2 ^ 53 := by
      calc size m e ≤ size m 0 := size_mono m (by omega)
        _ = m := size_natCast m
        _ < 2 ^ 53 := by exact_mod_cast h.bits
    exact absurd hbig (not_le.mpr hlt)
  obtain ⟨k, rfl⟩ := Int.eq_ofNat_of_zero_le he
  have hnat : size m (k : ℤ) = (m * 2 ^ k : ℕ) := by
    unfold size
    rw [zpow_natCast]
    push_cast
    rfl
  rw [hnat, Nat.floor_natCast]

/-- The whole numbers of up to 53 bits have a mantissa. -/
theorem exists_canonical (hpos : 0 < n) (hn : n < 2 ^ 53) :
    ∃ m e, 0 < m ∧ Canonical m e ∧ e ≤ 971 ∧ size m e = n := by
  have hlog : n.log2 < 53 := (Nat.log2_lt hpos.ne').mpr hn
  refine ⟨n * 2 ^ (52 - n.log2), -(52 - n.log2 : ℕ), Nat.mul_pos hpos (by positivity),
    ⟨?_, by omega, .inl ?_⟩, by omega, ?_⟩
  · calc n * 2 ^ (52 - n.log2) < 2 ^ (n.log2 + 1) * 2 ^ (52 - n.log2) :=
        Nat.mul_lt_mul_of_pos_right Nat.lt_log2_self (by positivity)
      _ = 2 ^ 53 := by
        rw [← pow_add]
        congr 1
        omega
  · calc 2 ^ 52 = 2 ^ n.log2 * 2 ^ (52 - n.log2) := by
          rw [← pow_add]
          congr 1
          omega
      _ ≤ n * 2 ^ (52 - n.log2) := Nat.mul_le_mul_right _ (Nat.log2_self_le hpos.ne')
  · rw [size_shift, neg_add_cancel, size_natCast]

/-! ## §2. Shifting bits out. -/

/-- The exponent a number is rounded at. -/
def target (m : ℕ) (e : ℤ) : ℤ := max (m.log2 + e - 52) (-1074)

/-- How many bits are shifted out up to there. -/
def excess (m : ℕ) (e : ℤ) : ℕ := (target m e - e).toNat

theorem targetExponent_eq (m : ℕ) (e : ℤ) :
    Format.binary64.targetExponent (totalExponent m e) = target m e := by
  unfold target Format.targetExponent totalExponent Format.mantissaBits Format.minExponent
  norm_num
  congr 1
  ring

theorem mantissa_shift (em : ExtendedMantissa) (k : ℕ) :
    (em >>> k).mantissa = em.mantissa / 2 ^ k := by
  induction k with
  | zero => exact (Nat.div_one _).symm
  | succ k ih =>
      show (em >>> k).mantissa / 2 = _
      rw [ih, Nat.div_div_eq_div_mul, pow_succ]

/-- Zeros that are shifted out leave nothing to round. -/
theorem accuracy_shift (m k : ℕ) (h : m % 2 ^ k = 0) :
    (ExtendedMantissa.mk m false false >>> k).roundBit = false
      ∧ (ExtendedMantissa.mk m false false >>> k).stickyBit = false := by
  induction k with
  | zero => exact ⟨rfl, rfl⟩
  | succ k ih =>
      have hdvd : 2 ^ (k + 1) ∣ m := Nat.dvd_of_mod_eq_zero h
      obtain ⟨hround, hsticky⟩ := ih (Nat.mod_eq_zero_of_dvd (dvd_trans ⟨2, pow_succ 2 k⟩ hdvd))
      have heven : m / 2 ^ k % 2 = 0 := by
        obtain ⟨j, rfl⟩ := hdvd
        rw [pow_succ, mul_assoc, Nat.mul_div_cancel_left _ (by positivity)]
        exact Nat.mul_mod_right 2 j
      constructor
      · show ((ExtendedMantissa.mk m false false >>> k).mantissa % 2 != 0) = false
        rw [mantissa_shift, heven]
        rfl
      · show ((ExtendedMantissa.mk m false false >>> k).roundBit
          || (ExtendedMantissa.mk m false false >>> k).stickyBit) = false
        rw [hround, hsticky]
        rfl

/-- What is rounded after `k` bits were shifted out lies between the two neighbours. -/
theorem roundedMantissa_shift (m k : ℕ) :
    m / 2 ^ k ≤ (ExtendedMantissa.mk m false false >>> k).roundedMantissa
      ∧ ∀ n, m ≤ n * 2 ^ k → (ExtendedMantissa.mk m false false >>> k).roundedMantissa ≤ n := by
  have hshift := mantissa_shift ⟨m, false, false⟩ k
  dsimp only at hshift
  generalize hem : ExtendedMantissa.mk m false false >>> k = em at hshift ⊢
  -- Whatever the bits behind it, the mantissa is kept or goes up by one.
  have hbounds : em.mantissa ≤ em.roundedMantissa ∧ em.roundedMantissa ≤ em.mantissa + 1 := by
    obtain ⟨mantissa, roundBit, stickyBit⟩ := em
    cases roundBit <;> cases stickyBit <;>
      simp [ExtendedMantissa.roundedMantissa, ExtendedMantissa.accuracy,
        Accuracy.roundToNearestEven]
    omega
  rw [hshift] at hbounds
  refine ⟨hbounds.1, fun n hn => ?_⟩
  by_cases hexact : m % 2 ^ k = 0
  · obtain ⟨hround, hsticky⟩ := accuracy_shift m k hexact
    rw [hem] at hround hsticky
    have hsame : em.roundedMantissa = em.mantissa := by
      obtain ⟨mantissa, roundBit, stickyBit⟩ := em
      dsimp only at hround hsticky
      rw [hround, hsticky]
      rfl
    rw [hsame, hshift]
    exact Nat.div_le_of_le_mul (by rwa [Nat.mul_comm] at hn)
  · have hless : m / 2 ^ k < n := by
      refine (Nat.div_lt_iff_lt_mul (by positivity)).mpr (lt_of_le_of_ne hn ?_)
      rintro rfl
      exact hexact (Nat.mul_mod_left n (2 ^ k))
    omega

/-! ## §3. Rounding. -/

/-- Bits are shifted out up to the exponent of the target. -/
theorem shiftToTargetExponent_eq (m : ℕ) (e : ℤ) :
    shiftToTargetExponent Format.binary64 m e .exact
      = (ExtendedMantissa.mk m false false >>> excess m e, e + excess m e) := by
  unfold shiftToTargetExponent
  rw [targetExponent_eq]
  rfl

/-- A mantissa that fits stays. -/
theorem shiftToTargetExponent_of_lt (hm : m < 2 ^ 53) (he : -1074 ≤ e) :
    shiftToTargetExponent Format.binary64 m e .exact = (⟨m, false, false⟩, e) := by
  have hlog : m.log2 ≤ 52 := by
    rcases Nat.eq_zero_or_pos m with rfl | hpos
    · decide
    · exact Nat.lt_succ_iff.mp ((Nat.log2_lt hpos.ne').mpr hm)
  have hzero : excess m e = 0 := by
    unfold excess target
    omega
  rw [shiftToTargetExponent_eq, hzero]
  simp only [Nat.cast_zero, add_zero]
  rfl

/-- A mantissa that was rounded up to the next power of two gives up a bit. -/
theorem shiftToTargetExponent_carry (he : -1074 ≤ e) :
    shiftToTargetExponent Format.binary64 (2 ^ 53) e .exact
      = (⟨2 ^ 52, false, false⟩, e + 1) := by
  have hlog : (2 ^ 53 : ℕ).log2 = 53 := Nat.log2_two_pow
  have hone : excess (2 ^ 53) e = 1 := by
    unfold excess target
    rw [hlog]
    omega
  rw [shiftToTargetExponent_eq, hone]
  rfl

/-- The mantissa that is left. -/
def roundedAt (m : ℕ) (e : ℤ) : ℕ :=
  (ExtendedMantissa.mk m false false >>> excess m e).roundedMantissa

/-- The exponent is no higher than the one to round at. -/
def Fine (m : ℕ) (e : ℤ) : Prop := 2 ^ 52 ≤ m ∨ e ≤ -1074

theorem least_le_target (m : ℕ) (e : ℤ) : -1074 ≤ target m e := le_max_right _ _

/-- A mantissa of enough bits is shifted to the exponent to round at. -/
theorem Fine.add_excess (h : Fine m e) : e + excess m e = target m e := by
  have hle : e ≤ target m e := by
    unfold target
    rcases h with hm | he
    · have hlog : 52 ≤ m.log2 := (Nat.le_log2 (by omega)).mpr hm
      omega
    · omega
  unfold excess
  omega

/-- A product of mantissas has bits enough. -/
theorem fine_mul (h : Canonical m e) (h' : Canonical n f) (hm : 0 < m) (hn : 0 < n) :
    Fine (m * n) (e + f) := by
  rcases h.full with hfull | rfl
  · exact .inl (hfull.trans (Nat.le_mul_of_pos_right m hn))
  · rcases h'.full with hfull | rfl
    · exact .inl (hfull.trans (Nat.le_mul_of_pos_left n hm))
    · exact .inr (by norm_num)

/-- Any mantissa has after bits were moved into it. -/
theorem fine_decrease (hm : 0 < m) (e : ℤ) :
    Fine (m <<< (e - target m e).toNat) (e - (e - target m e).toNat) := by
  have hpow : 2 ^ m.log2 ≤ m := Nat.log2_self_le hm.ne'
  rw [Nat.shiftLeft_eq]
  by_cases hleast : target m e = -1074
  · exact .inr (by omega)
  · refine .inl ?_
    have hbits : 52 ≤ m.log2 + (e - target m e).toNat := by
      unfold target at hleast ⊢
      omega
    calc 2 ^ 52 ≤ 2 ^ (m.log2 + (e - target m e).toNat) := Nat.pow_le_pow_right (by decide) hbits
      _ = 2 ^ m.log2 * 2 ^ (e - target m e).toNat := pow_add 2 _ _
      _ ≤ m * 2 ^ (e - target m e).toNat := Nat.mul_le_mul_right _ hpow

/-- The mantissa has no more bits than fit. -/
theorem Fine.lt_shifted (h : Fine m e) : m < 2 ^ 53 * 2 ^ excess m e := by
  have hlog : m.log2 + 1 ≤ 53 + excess m e := by
    have hadd := h.add_excess
    unfold target at hadd
    omega
  calc m < 2 ^ (m.log2 + 1) := Nat.lt_log2_self
    _ ≤ 2 ^ (53 + excess m e) := Nat.pow_le_pow_right (by decide) hlog
    _ = 2 ^ 53 * 2 ^ excess m e := pow_add 2 53 _

/-- The mantissa that is left has 53 bits, or is the next power of two. -/
theorem Fine.roundedAt_le (h : Fine m e) : roundedAt m e ≤ 2 ^ 53 :=
  (roundedMantissa_shift m _).2 _ h.lt_shifted.le

/-- Above the least exponent it has no fewer. -/
theorem Fine.full (h : Fine m e) (hne : target m e ≠ -1074) :
    2 ^ 52 ≤ m / 2 ^ excess m e := by
  have hadd := h.add_excess
  have hlog : m.log2 = 52 + excess m e := by
    unfold target at hadd hne
    omega
  have hpos : m ≠ 0 := by
    intro hzero
    rw [hzero, Nat.log2_zero] at hlog
    omega
  rw [Nat.le_div_iff_mul_le (by positivity), ← pow_add, ← hlog]
  exact Nat.log2_self_le hpos

/-- An unpacked number that is `q` behind a sign, with a mantissa in range. -/
def Holds (s : Sign) (q : ℚ) : UnpackedFloat → Prop
  | .zero t => t = s ∧ q = 0
  | .finite t m e _ => t = s ∧ Canonical m e ∧ q = size m e
  | _ => False

/-- What rounding keeps, whether it carries or not. -/
theorem holds_round (s : Sign) (h : Fine m e) :
    Holds s (size (roundedAt m e) (target m e))
      (roundWithAccuracy Format.binary64 s m e .exact) := by
  have hfirst : shiftToTargetExponent Format.binary64 m e .exact
      = (ExtendedMantissa.mk m false false >>> excess m e, target m e) := by
    rw [← h.add_excess]
    exact shiftToTargetExponent_eq m e
  have hleast := least_le_target m e
  have hrounded : (ExtendedMantissa.mk m false false >>> excess m e).roundedMantissa
      = roundedAt m e := rfl
  unfold roundWithAccuracy
  rw [hfirst]
  dsimp only
  rw [hrounded]
  -- Rounding leaves a mantissa that fits, or the one that is too long by a bit.
  rcases h.roundedAt_le.lt_or_eq with hlt | heq
  · by_cases hzero : roundedAt m e = 0
    · rw [shiftToTargetExponent_of_lt hlt hleast, dif_pos hzero]
      refine ⟨rfl, ?_⟩
      rw [hzero, size_zero]
    · rw [shiftToTargetExponent_of_lt hlt hleast, dif_neg hzero]
      refine ⟨rfl, ⟨hlt, hleast, ?_⟩, rfl⟩
      by_cases hmin : target m e = -1074
      · exact .inr hmin
      · exact .inl ((h.full hmin).trans (roundedMantissa_shift m _).1)
  · -- The mantissa was rounded up to one bit more, and that bit is given up.
    rw [heq, shiftToTargetExponent_carry hleast]
    refine ⟨rfl, ⟨by norm_num, by omega, .inl le_rfl⟩, ?_⟩
    exact size_shift (2 ^ 52) (target m e) 1

/-- Doubles of lower exponents lie below all that is rounded at this one. -/
theorem Fine.size_lt_target (h : Fine m e) (hn : Canonical n f) (hf : f < target m e) :
    size n f < size (m / 2 ^ excess m e) (target m e) := by
  have hmin : target m e ≠ -1074 := by
    have := hn.least
    omega
  have hcanonical : Canonical (2 ^ 52) (target m e) :=
    ⟨by norm_num, least_le_target m e, .inl le_rfl⟩
  exact (hn.size_lt hcanonical hf).trans_le (size_le_size.mpr (h.full hmin))

/-- **Rounding passes no double**: what is rounded stays on the same side of each. -/
theorem rounded_between (h : Fine m e) (hn : Canonical n f) :
    (size m e ≤ size n f → size (roundedAt m e) (target m e) ≤ size n f)
      ∧ (size n f ≤ size m e → size n f ≤ size (roundedAt m e) (target m e)) := by
  obtain ⟨hlow, hhigh⟩ := roundedMantissa_shift m (excess m e)
  have hscale (j : ℕ) : size j (target m e) = size (j * 2 ^ excess m e) e := by
    rw [size_shift, h.add_excess]
  by_cases hf : target m e ≤ f
  · -- In units of the target the double is a whole number.
    obtain ⟨j, hj⟩ : ∃ j, size n f = size j (target m e) := by
      refine ⟨n * 2 ^ (f - target m e).toNat, ?_⟩
      rw [size_shift]
      congr 1
      omega
    rw [hj]
    constructor
    · intro hle
      rw [hscale, size_le_size] at hle
      exact size_le_size.mpr (hhigh j hle)
    · intro hle
      rw [hscale, size_le_size] at hle
      refine size_le_size.mpr (le_trans ?_ hlow)
      exact (Nat.le_div_iff_mul_le (by positivity)).mpr hle
  · -- Else it lies below the number, and below all that the number can be rounded to.
    have hbelow := h.size_lt_target hn (lt_of_not_ge hf)
    have hfloor : size (m / 2 ^ excess m e) (target m e) ≤ size m e := by
      rw [hscale]
      exact size_le_size.mpr (Nat.div_mul_le_self m _)
    constructor
    · intro hle
      exact absurd (hbelow.trans_le hfloor) (not_lt.mpr hle)
    · intro _
      exact hbelow.le.trans (size_le_size.mpr hlow)

end GifEdit.Double
