/-
  GifEdit.Proofs.Scalar.Counts
  ────────────────────────────
  **COUNTING WITH DOUBLES.**

  The editor counts by rounding a double to a whole number and taking its whole part as a
  word.  Neither step goes astray:

    * `toUInt64_mono`            — larger doubles have larger whole parts,
    * `roundDouble_le`           — what is at most a count is rounded to at most that count,
    * `toUInt64_ofNat_toUInt64`  — a whole part, taken as a double again, is the same.

  The last one is not true of every word: counts beyond `2^53` are rounded when they are
  taken as doubles, but those that a double gives are doubles.
-/
import GifEdit.Proofs.Scalar.Doubles

namespace GifEdit.Double

open Float.Model (Format UnpackedFloat)
open Float.Model.UnpackedFloat

variable {m n : ℕ} {e : ℤ} {p q : ℚ} {x y : Float}

/-! ## §1. Whole parts. -/

/-- A whole number is cut off at the largest word of 64 bits. -/
theorem toNat_ofNatClamp (n : ℕ) : (UInt64.ofNatClamp n).toNat = min n (2 ^ 64 - 1) := by
  unfold UInt64.ofNatClamp
  by_cases hn : n < UInt64.size
  · have hle : n ≤ 2 ^ 64 - 1 := Nat.le_sub_one_of_lt hn
    rw [dif_pos hn, min_eq_left hle]
    rfl
  · have hle : 2 ^ 64 - 1 ≤ n := by
      change ¬ n < 2 ^ 64 at hn
      omega
    rw [dif_neg hn, min_eq_right hle]
    rfl

/-- Bits below the point are dropped. -/
theorem roundToInt_eq (m : ℕ) (e : ℤ) : roundToInt .positive m e = ⌊size m e⌋₊ := by
  have hshift : roundToInt .positive m e
      = (m <<< (e - 0).toNat / 2 ^ (0 - (e - (e - 0).toNat)).toNat : ℕ) := by
    have h := mantissa_shift ⟨m <<< (e - 0).toNat, false, false⟩ (0 - (e - (e - 0).toNat)).toNat
    exact congrArg Nat.cast h
  rw [hshift, Nat.shiftLeft_eq]
  congr 1
  unfold size
  rcases le_or_gt 0 e with he | he
  · obtain ⟨k, rfl⟩ := Int.eq_ofNat_of_zero_le he
    have hzero : (0 - ((k : ℤ) - ((k : ℤ) - 0).toNat)).toNat = 0 := by omega
    have hk : ((k : ℤ) - 0).toNat = k := by omega
    rw [hzero, hk, pow_zero, Nat.div_one, zpow_natCast]
    exact_mod_cast (Nat.floor_natCast (R := ℚ) (m * 2 ^ k)).symm
  · obtain ⟨k, hk⟩ := Int.eq_ofNat_of_zero_le (by omega : 0 ≤ -e)
    obtain rfl : e = -(k : ℤ) := by omega
    have hzero : (-(k : ℤ) - 0).toNat = 0 := by omega
    have hcount : (0 - (-(k : ℤ) - ((0 : ℕ) : ℤ))).toNat = k := by omega
    rw [hzero, hcount, pow_zero, mul_one, zpow_neg, zpow_natCast, ← div_eq_mul_inv]
    exact_mod_cast (Nat.floor_div_eq_div (K := ℚ) m (2 ^ k)).symm

/-- **The whole part of a size**, at most the largest word. -/
theorem IsSize.toNat_toUInt64 (h : IsSize x q) : x.toUInt64.toNat = min ⌊q⌋₊ (2 ^ 64 - 1) := by
  show (UInt64.ofNatClamp (x.toModel.unpack.toInt 0 (UInt64.size - 1)).toNat).toNat = _
  rw [toNat_ofNatClamp]
  congr 1
  cases h with
  | zero s h =>
      rw [h, Nat.floor_zero]
      rfl
  | finite m e hm h =>
      rw [h]
      show (roundToInt .positive m e).toNat = _
      rw [roundToInt_eq]
      rfl

/-- Infinity is converted to that word. -/
theorem toUInt64_of_infinity (hx : x.toModel.unpack = .infinity .positive) :
    x.toUInt64.toNat = 2 ^ 64 - 1 := by
  show (UInt64.ofNatClamp (x.toModel.unpack.toInt 0 (UInt64.size - 1)).toNat).toNat = 2 ^ 64 - 1
  rw [hx]
  rfl

/-- A number below zero, or an undefined one, has no whole part. -/
theorem toUInt64_of_not_nonneg (hx : ¬ (0 : Float) ≤ x) : x.toUInt64.toNat = 0 := by
  rw [Scalar.double_le_iff, unpack_zero] at hx
  show (UInt64.ofNatClamp (x.toModel.unpack.toInt 0 (UInt64.size - 1)).toNat).toNat = 0
  rw [toNat_ofNatClamp]
  generalize x.toModel.unpack = u at hx
  have hnone : (u.toInt 0 (UInt64.size - 1)).toNat = 0 := by
    cases u with
    | notANumber => rfl
    | zero s => rfl
    | infinity s =>
        cases s with
        | negative => rfl
        | positive => exact absurd rfl hx
    | finite s m e hm =>
        cases s with
        | positive => exact absurd rfl hx
        | negative =>
            show (-(_ : ℤ)).toNat = 0
            exact Int.toNat_of_nonpos (neg_nonpos.mpr (Int.natCast_nonneg _))
  rw [hnone]
  rfl

/-- **Larger numbers have larger whole parts.** -/
theorem toUInt64_mono (h : x ≤ y) : x.toUInt64.toNat ≤ y.toUInt64.toNat := by
  by_cases hx : (0 : Float) ≤ x
  · rcases nonneg_cases (OrderedScalar.le_trans hx h) with ⟨q, hq⟩ | hinfinity
    · obtain ⟨p, hp, -, hpq⟩ := exists_isSize_of_mem isSize_zero hq hx h
      rw [hp.toNat_toUInt64, hq.toNat_toUInt64]
      exact min_le_min_right _ (Nat.floor_mono hpq)
    · rw [toUInt64_of_infinity hinfinity]
      exact Nat.le_sub_one_of_lt x.toUInt64.toNat_lt
  · rw [toUInt64_of_not_nonneg hx]
    exact Nat.zero_le _

/-! ## §2. The nearest whole number. -/

/-- Numbers of one size do not differ. -/
theorem unpack_sub (hx : IsSize x q) (hy : IsSize y q) :
    ∃ s, (x - y).toModel.unpack = .zero s := by
  obtain ⟨s, hs⟩ : ∃ s,
      UnpackedFloat.sub Format.binary64 x.toModel.unpack y.toModel.unpack = .zero s := by
    generalize hr : q = r at hy
    cases hx with
    | zero s hs =>
        cases hy with
        | zero t ht =>
            rw [hs, ht]
            cases s <;> cases t <;> exact ⟨_, rfl⟩
        | finite n f hn ht => exact absurd hr (size_pos hn f).ne
    | finite m e hm hs =>
        cases hy with
        | zero t ht => exact absurd hr (size_pos hm e).ne'
        | finite n f hn ht =>
            -- Of one size there is one mantissa and one exponent.
            obtain ⟨rfl, rfl⟩ := (canonical_of_unpack hs).1.unique (canonical_of_unpack ht).1 hr
            have hnone (k : ℤ) (e : ℤ) :
                UnpackedFloat.normalize Format.binary64 (k - k) e .positive = .zero .positive := by
              rw [sub_self]
              rfl
            rw [hs, ht]
            exact ⟨.positive, hnone _ _⟩
  refine ⟨s, ?_⟩
  show (Float.Model.pack (UnpackedFloat.sub Format.binary64 x.toModel.unpack
    y.toModel.unpack)).unpack = .zero s
  rw [hs]
  exact unpack_pack_zero s

/-- The nearest whole number is the one below, or the next one where something is behind
the point. -/
theorem nearestWhole_cases (hx : IsSize x q) :
    Scalar.nearestWhole x = x.toUInt64.toFloat
      ∨ Scalar.nearestWhole x = (x.toUInt64 + 1).toFloat ∧ ¬ IsSize x.toUInt64.toFloat q := by
  unfold Scalar.nearestWhole
  dsimp only
  by_cases hlow : x - x.toUInt64.toFloat < 0.5
  · rw [if_pos hlow]
    exact .inl rfl
  · rw [if_neg hlow]
    refine .inr ⟨rfl, ?_⟩
    intro hwhole
    obtain ⟨s, hs⟩ := unpack_sub hx hwhole
    refine hlow ?_
    rw [Scalar.double_lt_iff, hs]
    rfl

/-- Rounding to a whole number passes no whole number. -/
theorem nearestWhole_le (hx : IsSize x q) (hlimit : q < 2 ^ 52) (hn : x ≤ Scalar.ofNat n) :
    Scalar.nearestWhole x ≤ Scalar.ofNat n := by
  have hfloor : ⌊q⌋₊ < 2 ^ 52 := by
    rw [Nat.floor_lt hx.nonneg]
    exact_mod_cast hlimit
  have hwhole : x.toUInt64.toNat = ⌊q⌋₊ := by
    rw [hx.toNat_toUInt64]
    omega
  have hnext : (x.toUInt64 + 1).toNat = ⌊q⌋₊ + 1 := by
    have hone : (1 : UInt64).toNat = 1 := rfl
    rw [UInt64.toNat_add, hwhole, hone]
    exact Nat.mod_eq_of_lt (by omega)
  have hbelow {w : UInt64} (hw : w.toNat ≤ 2 ^ 52) (hle : w.toNat ≤ n) :
      w.toFloat ≤ Scalar.ofNat n := by
    obtain ⟨z, hz⟩ := exists_isSize_natCast (n := w.toNat) (by omega)
    exact (rounds_toFloat w).le_rounds (rounds_ofNat n) hz (by exact_mod_cast hle)
  -- Small counts are doubles themselves, and then the number is at most the count.
  have hcount (hsmall : n < 2 ^ 52) : q ≤ n := (hx.le_iff (isSize_ofNat (by omega))).mp hn
  have hle : ⌊q⌋₊ ≤ n := by
    by_cases hsmall : n < 2 ^ 52
    · exact Nat.floor_le_of_le (hcount hsmall)
    · omega
  rcases nearestWhole_cases hx with hsame | ⟨hup, hbehind⟩
  · rw [hsame]
    exact hbelow (by omega) (by omega)
  · -- With something behind the point, the next whole number is not beyond the count either.
    have hlt : ⌊q⌋₊ < n := by
      by_contra hge
      obtain rfl : n = ⌊q⌋₊ := by omega
      have hq : q = ⌊q⌋₊ := le_antisymm (hcount hfloor) (Nat.floor_le hx.nonneg)
      refine hbehind ?_
      rw [hq, ← hwhole]
      exact isSize_toFloat (by omega)
    rw [hup]
    exact hbelow (by omega) (by omega)

/-- With its sign changed, what is not below zero is not above it. -/
theorem neg_le_zero (hx : (0 : Float) ≤ x) : -x ≤ 0 := by
  rw [Scalar.double_le_iff, unpack_zero]
  show (Float.Model.pack x.toModel.unpack.neg).unpack.le (.zero .positive) = true
  rcases nonneg_cases hx with ⟨q, hq⟩ | hinfinity
  · cases hq with
    | zero s hs =>
        rw [hs]
        show (Float.Model.pack (.zero _)).unpack.le (.zero .positive) = true
        rw [unpack_pack_zero]
        rfl
    | finite m e hm hs =>
        obtain ⟨hcanonical, he⟩ := canonical_of_unpack hs
        rw [hs]
        show (Float.Model.pack (.finite .negative m e hm)).unpack.le (.zero .positive) = true
        rw [unpack_pack_finite hcanonical hm he]
        rfl
  · rw [hinfinity]
    rfl

/-- **Rounding passes no whole number.** -/
theorem roundDouble_le (hn : x ≤ Scalar.ofNat n) : Scalar.roundDouble x ≤ Scalar.ofNat n := by
  have hlimit : IsSize (4503599627370496 : Float) (2 ^ 52) := by
    have hsize : size (2 ^ 52) 0 = 2 ^ 52 := by
      rw [size_natCast]
      norm_num
    rw [← hsize]
    exact .finite _ _ _ rfl
  unfold Scalar.roundDouble
  by_cases hpos : 0 < x ∧ x < 4503599627370496
  · obtain ⟨q, hq, -, -⟩ := exists_isSize_of_mem isSize_zero hlimit
      (OrderedScalar.le_of_lt hpos.1) (OrderedScalar.le_of_lt hpos.2)
    rw [if_pos hpos]
    exact nearestWhole_le hq ((hq.lt_iff hlimit).mp hpos.2) hn
  · rw [if_neg hpos]
    by_cases hneg : x < 0 ∧ -4503599627370496 < x
    · have hwhole : (0 : Float) ≤ Scalar.nearestWhole (-x) :=
        (rounds_toFloat _).ge isSize_zero (Nat.cast_nonneg _)
      rw [if_pos hneg]
      exact OrderedScalar.le_trans (neg_le_zero hwhole) (zero_le_ofNat n)
    · rw [if_neg hneg]
      exact hn

theorem roundDouble_undefined (hx : Scalar.isUndefined x = true) : Scalar.roundDouble x = x := by
  have hlow : ¬ x < 0 := mt OrderedScalar.le_of_lt (Scalar.not_le_of_undefined hx 0).1
  have hhigh : ¬ 0 < x := mt OrderedScalar.le_of_lt (Scalar.not_le_of_undefined hx 0).2
  unfold Scalar.roundDouble
  rw [if_neg fun h => hhigh h.1, if_neg fun h => hlow h.1]

/-! ## §3. Counts. -/

/-- Words of up to 53 bits are their own whole parts. -/
theorem toUInt64_ofNat (hn : n < 2 ^ 53) : (Scalar.ofNat n : Float).toUInt64.toNat = n := by
  rw [(isSize_ofNat hn).toNat_toUInt64, Nat.floor_natCast]
  omega

/-- **A whole part is a count**: taken as a double again, it is the same. -/
theorem toUInt64_ofNat_toUInt64 (x : Float) :
    (Scalar.ofNat x.toUInt64.toNat : Float).toUInt64.toNat = x.toUInt64.toNat := by
  have hmax : (Scalar.ofNat (2 ^ 64 - 1) : Float).toUInt64.toNat = 2 ^ 64 - 1 := by
    decide +kernel
  by_cases hsmall : x.toUInt64.toNat < 2 ^ 53
  · exact toUInt64_ofNat hsmall
  -- The largest word is not a double, so it is looked at on its own.
  by_cases hover : x.toUInt64.toNat = 2 ^ 64 - 1
  · rw [hover, hmax]
  have hx : (0 : Float) ≤ x := by
    by_contra hneg
    rw [toUInt64_of_not_nonneg hneg] at hsmall
    omega
  rcases nonneg_cases hx with ⟨q, hq⟩ | hinfinity
  · -- A double this large is the whole number itself.
    have hfloor : x.toUInt64.toNat = ⌊q⌋₊ := by
      have h := hq.toNat_toUInt64
      omega
    have hexact : q = x.toUInt64.toNat := by
      have hbig : (2 ^ 53 : ℚ) ≤ q := by
        have h53 : 2 ^ 53 ≤ ⌊q⌋₊ := by omega
        exact_mod_cast (Nat.le_floor_iff hq.nonneg).mp h53
      obtain ⟨m, e, hcanonical, -, rfl⟩ := hq.exists_canonical
      rw [hfloor]
      exact hcanonical.eq_floor hbig
    rw [hexact] at hq
    exact le_antisymm (toUInt64_mono ((rounds_ofNat _).le hq le_rfl))
      (toUInt64_mono ((rounds_ofNat _).ge hq le_rfl))
  · exact absurd (toUInt64_of_infinity hinfinity) hover

end GifEdit.Double
