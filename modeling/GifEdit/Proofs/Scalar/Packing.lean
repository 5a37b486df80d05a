/-
  GifEdit.Proofs.Scalar.Packing
  ─────────────────────────────
  **DOUBLES IN BITS.**

  The result of an operation is stored in 64 bits and unpacked again by the next one.  What
  comes out is what was put in, but for numbers beyond the largest double:

      in                                  out
      a zero                              the same zero
      a mantissa and an exponent in range the same number
      an exponent above 971               an infinity
      the undefined number                the undefined number, and only then
-/
import GifEdit.Proofs.Scalar.Sizes

namespace GifEdit.Double

open Float.Model (Format UnpackedFloat)
open Float.Model.UnpackedFloat

variable {m n : ℕ} {e f : ℤ} {s : Sign}

/-! ## §1. Numbers in bits. -/

/-- A number that fits into the bits of a double. -/
def IsDouble : UnpackedFloat → Prop
  | .finite _ m e _ => Canonical m e ∧ e ≤ 971
  | _ => True

theorem ofBitVec_toBitVec (s : Sign) : Sign.ofBitVec s.toBitVec = s := by cases s <;> rfl

/-- The sign comes back out of the bits. -/
theorem unpackSign_packComponents (s : Sign) (exponent : BitVec 11) (mantissa : BitVec 52) :
    unpackSign (packComponents Format.binary64 s exponent mantissa) = s.toBitVec := by
  apply BitVec.eq_of_getLsbD_eq
  intro i hi
  obtain rfl : i = 0 := by omega
  show ((s.toBitVec ++ exponent ++ mantissa : BitVec 64).extractLsb 63 63).getLsbD 0 = _
  rw [BitVec.getLsbD_extractLsb]
  show (decide (0 < 1) && ((s.toBitVec ++ exponent) ++ mantissa).getLsbD 63) = _
  rw [BitVec.getLsbD_append, BitVec.getLsbD_append]
  rfl

/-- The bits of a finite number, by its exponent and its mantissa. -/
theorem pack_finite (s : Sign) (hm : 0 < m) (e : ℤ) :
    UnpackedFloat.pack Format.binary64 (.finite s m e hm)
      = if 2 ^ 11 ≤ (e + 1075).toNat + 1 then packedInfinity Format.binary64 s
        else if m.log2 + 1 = 53 then
          packComponents Format.binary64 s (BitVec.ofNat 11 (e + 1075).toNat) (BitVec.ofNat 52 m)
        else packComponents Format.binary64 s 0#11 (BitVec.ofNat 52 m) := by
  have hbiased : (e + (1023 : ℕ) + (52 : ℕ)).toNat = (e + 1075).toNat := by omega
  rw [← hbiased]
  rfl

/-- A mantissa behind its implicit bit. -/
theorem toNat_implicit (mantissa : BitVec 52) :
    (1#1 ++ mantissa).toNat = 2 ^ 52 + mantissa.toNat := by
  rw [BitVec.toNat_append, ← Nat.shiftLeft_add_eq_or_of_lt mantissa.isLt]
  rfl

theorem finite_eq {t : Sign} {hm : 0 < m} {hn : 0 < n} (hs : s = t) (hmn : m = n) (hef : e = f) :
    UnpackedFloat.finite s m e hm = .finite t n f hn := by
  subst hs hmn hef
  rfl

theorem ne_allOnes {x : BitVec 11} (h : x.toNat < 2047) : x ≠ -1#11 := by
  rintro rfl
  exact absurd h (by decide)

theorem ne_zero {k : ℕ} {x : BitVec k} (h : 0 < x.toNat) : x ≠ 0#k := by
  rintro rfl
  simp at h

variable {b : BitVec 64}

/-- With an exponent in range the mantissa has one more bit than is stored. -/
theorem unpack_normal (hpos : 0 < (@unpackExponent Format.binary64 b).toNat)
    (hmax : (@unpackExponent Format.binary64 b).toNat < 2047) :
    ∃ hm, UnpackedFloat.unpack Format.binary64 b
      = .finite (.ofBitVec (@unpackSign Format.binary64 b))
          (2 ^ 52 + (@unpackMantissa Format.binary64 b).toNat)
          ((@unpackExponent Format.binary64 b).toNat - 1075) hm := by
  have himplicit := toNat_implicit (@unpackMantissa Format.binary64 b)
  unfold UnpackedFloat.unpack
  dsimp only
  rw [if_neg (ne_allOnes hmax), if_neg (ne_zero hpos)]
  exact ⟨by positivity, finite_eq rfl himplicit rfl⟩

/-- With the least exponent it has the stored bits alone. -/
theorem unpack_subnormal (hzero : @unpackExponent Format.binary64 b = 0#11)
    (hpos : 0 < (@unpackMantissa Format.binary64 b).toNat) :
    ∃ hm, UnpackedFloat.unpack Format.binary64 b
      = .finite (.ofBitVec (@unpackSign Format.binary64 b))
          (@unpackMantissa Format.binary64 b).toNat (-1074) hm := by
  have hexponent : @unpackExponent Format.binary64 b ≠ -1#11 := by
    rw [hzero]
    decide
  unfold UnpackedFloat.unpack
  dsimp only
  rw [if_neg hexponent, if_pos hzero, dif_neg (ne_zero hpos)]
  refine ⟨hpos, finite_eq rfl rfl ?_⟩
  rw [hzero]
  rfl

/-- Bits whose exponent is not all ones are those of a zero or of a number in range. -/
theorem unpack_cases (hones : @unpackExponent Format.binary64 b ≠ -1#11) :
    (∃ s, UnpackedFloat.unpack Format.binary64 b = .zero s)
      ∨ ∃ s m e hm, UnpackedFloat.unpack Format.binary64 b = .finite s m e hm
          ∧ Canonical m e ∧ e ≤ 971 := by
  have hmantissa := (@unpackMantissa Format.binary64 b).isLt
  change _ < 2 ^ 52 at hmantissa
  -- The exponent tells zeros and short mantissas from mantissas of 53 bits.
  by_cases hzero : @unpackExponent Format.binary64 b = 0#11
  · by_cases hnone : @unpackMantissa Format.binary64 b = 0#52
    · left
      unfold UnpackedFloat.unpack
      dsimp only
      rw [if_neg hones, if_pos hzero, dif_pos hnone]
      exact ⟨_, rfl⟩
    · right
      have hpos : 0 < (@unpackMantissa Format.binary64 b).toNat :=
        Nat.pos_of_ne_zero fun h => hnone (BitVec.eq_of_toNat_eq h)
      obtain ⟨hm, h⟩ := unpack_subnormal hzero hpos
      exact ⟨_, _, _, hm, h, ⟨by omega, le_rfl, .inr rfl⟩, by norm_num⟩
  · right
    have hlt := (@unpackExponent Format.binary64 b).isLt
    change _ < 2 ^ 11 at hlt
    have hpos : (@unpackExponent Format.binary64 b).toNat ≠ 0 :=
      fun h => hzero (BitVec.eq_of_toNat_eq h)
    have hmax : (@unpackExponent Format.binary64 b).toNat ≠ 2047 :=
      fun h => hones (BitVec.eq_of_toNat_eq h)
    obtain ⟨hm, h⟩ := unpack_normal (b := b) (by omega) (by omega)
    exact ⟨_, _, _, hm, h, ⟨by omega, by omega, .inl (by omega)⟩, by omega⟩

/-- Whatever the bits, the mantissa and the exponent behind them are in range. -/
theorem isDouble_unpack (v : Float.Model) : IsDouble v.unpack := by
  show IsDouble (UnpackedFloat.unpack Format.binary64 v.toBits.toBitVec)
  generalize v.toBits.toBitVec = b
  by_cases hones : @unpackExponent Format.binary64 b = -1#11
  · unfold UnpackedFloat.unpack
    dsimp only
    rw [if_pos hones]
    split <;> trivial
  · obtain ⟨s, h⟩ | ⟨s, m, e, hm, h, hrange⟩ := unpack_cases hones
    · rw [h]
      trivial
    · rw [h]
      exact hrange

/-! ## §2. Out of the bits again. -/

theorem unpack_pack_zero (s : Sign) : (Float.Model.pack (.zero s)).unpack = .zero s := by
  cases s <;> rfl

/-- Doubles come out as they were put in. -/
theorem unpack_pack_finite (h : Canonical m e) (hm : 0 < m) (he : e ≤ 971) :
    (Float.Model.pack (.finite s m e hm)).unpack = .finite s m e hm := by
  obtain ⟨hbits, hleast, hfull⟩ := h
  have hfits : ¬ 2 ^ 11 ≤ (e + 1075).toNat + 1 := by omega
  show UnpackedFloat.unpack Format.binary64 (UnpackedFloat.pack Format.binary64 _) = _
  rw [pack_finite, if_neg hfits]
  have hsign (x : BitVec 11) (mantissa : BitVec 52) : Sign.ofBitVec (@unpackSign Format.binary64
      (packComponents Format.binary64 s x mantissa)) = s := by
    rw [unpackSign_packComponents, ofBitVec_toBitVec]
  -- A mantissa of 53 bits is stored without its first one; a shorter one is stored in full.
  by_cases hnormal : 2 ^ 52 ≤ m
  · have hlog : m.log2 + 1 = 53 :=
      congrArg (· + 1) ((Nat.log2_eq_iff hm.ne').mpr ⟨hnormal, hbits⟩)
    have hexponent : (BitVec.ofNat 11 (e + 1075).toNat).toNat = (e + 1075).toNat := by
      rw [BitVec.toNat_ofNat, Nat.mod_eq_of_lt (by omega)]
    have hmantissa : 2 ^ 52 + (BitVec.ofNat 52 m).toNat = m := by
      rw [BitVec.toNat_ofNat]
      omega
    rw [if_pos hlog]
    obtain ⟨hm', h⟩ := unpack_normal
      (b := packComponents Format.binary64 s (BitVec.ofNat 11 (e + 1075).toNat) (BitVec.ofNat 52 m))
      (by rw [unpackExponent_packComponents]; omega)
      (by rw [unpackExponent_packComponents]; omega)
    rw [h]
    refine finite_eq (hsign _ _) ?_ ?_
    · rw [unpackMantissa_packComponents]
      exact hmantissa
    · rw [unpackExponent_packComponents]
      omega
  · have hlog : ¬ m.log2 + 1 = 53 := by
      have hlt : m.log2 < 52 := (Nat.log2_lt hm.ne').mpr (by omega)
      omega
    have hmantissa : (BitVec.ofNat 52 m).toNat = m := by
      rw [BitVec.toNat_ofNat, Nat.mod_eq_of_lt (by omega)]
    rw [if_neg hlog]
    obtain ⟨hm', h⟩ := unpack_subnormal
      (b := packComponents Format.binary64 s 0#11 (BitVec.ofNat 52 m))
      unpackExponent_packComponents
      (by rw [unpackMantissa_packComponents]; omega)
    rw [h]
    refine finite_eq (hsign _ _) ?_ (hfull.resolve_left hnormal).symm
    rw [unpackMantissa_packComponents]
    exact hmantissa

/-- Beyond the largest double they come out as infinities. -/
theorem unpack_pack_overflow (hm : 0 < m) (he : 971 < e) :
    (Float.Model.pack (.finite s m e hm)).unpack = .infinity s := by
  have hover : 2 ^ 11 ≤ (e + 1075).toNat + 1 := by omega
  show UnpackedFloat.unpack Format.binary64 (UnpackedFloat.pack Format.binary64 _) = _
  rw [pack_finite, if_pos hover]
  cases s <;> rfl

/-- Only the undefined number is stored as one. -/
theorem isNaN_unpack_pack {u : UnpackedFloat} (hu : u.isNaN = false) :
    (Float.Model.pack u).unpack.isNaN = false := by
  cases u with
  | notANumber => exact absurd hu.symm Bool.false_ne_true
  | infinity s => cases s <;> rfl
  | zero s => cases s <;> rfl
  | finite s m e hm =>
      show (UnpackedFloat.unpack Format.binary64 (UnpackedFloat.pack Format.binary64 _)).isNaN
        = false
      rw [pack_finite]
      by_cases hover : 2 ^ 11 ≤ (e + 1075).toNat + 1
      · rw [if_pos hover]
        cases s <;> rfl
      · rw [if_neg hover]
        -- The exponent is not the one of infinities and undefined numbers.
        have hdefined (x : BitVec 11) (hx : x.toNat < 2047) (mantissa : BitVec 52) :
            (UnpackedFloat.unpack Format.binary64
              (packComponents Format.binary64 s x mantissa)).isNaN = false := by
          have hones : @unpackExponent Format.binary64
              (packComponents Format.binary64 s x mantissa) ≠ -1#11 := by
            rw [unpackExponent_packComponents]
            exact ne_allOnes hx
          obtain ⟨s, h⟩ | ⟨s, m, e, hm, h, -⟩ := unpack_cases hones <;> rw [h] <;> rfl
        by_cases hnormal : m.log2 + 1 = 53
        · rw [if_pos hnormal]
          refine hdefined _ ?_ _
          rw [BitVec.toNat_ofNat, Nat.mod_eq_of_lt (by omega)]
          omega
        · rw [if_neg hnormal]
          exact hdefined _ (by decide) _

/-- No number is made undefined by packing it. -/
theorem unpack_pack_iff {u : UnpackedFloat} :
    (Float.Model.pack u).unpack = .notANumber ↔ u = .notANumber := by
  constructor
  · intro h
    by_contra hu
    have hdefined : u.isNaN = false := by
      cases u with
      | notANumber => exact absurd rfl hu
      | infinity s => rfl
      | zero s => rfl
      | finite s m e hm => rfl
    have hstored := isNaN_unpack_pack hdefined
    rw [h] at hstored
    exact Bool.false_ne_true hstored.symm
  · intro h
    rw [h]
    rfl

end GifEdit.Double
