/-
  GifEdit.Proofs.Scalar.Doubles
  ─────────────────────────────
  **ARITHMETIC OF DOUBLES.**

  A double that is not below zero, and not infinite, has a SIZE.  Doubles compare as their
  sizes do, and an operation rounds once: its result is on the same side of every double as
  the exact result.

      sums            p + q       (`rounds_add`)
      products        p · q       (`rounds_mul`)
      words           n           (`rounds_toFloat`)
      literals        n           (`rounds_ofNat`)

  A result that is a double itself is therefore exact.  Quotients need less: it is enough to
  know which of them are undefined.
-/
import GifEdit.Proofs.Scalar.Order
import GifEdit.Proofs.Scalar.Packing

namespace GifEdit.Double

open Float.Model (Format UnpackedFloat)
open Float.Model.UnpackedFloat

variable {m n : ℕ} {e f : ℤ} {p q r : ℚ} {x y z : Float}

/-! ## §1. Sizes of doubles. -/

/-- A double that is the nonnegative number `q`. -/
inductive IsSize (x : Float) : ℚ → Prop where
  | zero (s : Sign) (h : x.toModel.unpack = .zero s) : IsSize x 0
  | finite (m : ℕ) (e : ℤ) (hm : 0 < m) (h : x.toModel.unpack = .finite .positive m e hm) :
      IsSize x (size m e)

/-- The mantissa and the exponent of a double are in range. -/
theorem canonical_of_unpack {s : Sign} {hm : 0 < m} (h : x.toModel.unpack = .finite s m e hm) :
    Canonical m e ∧ e ≤ 971 := by
  have hdouble := isDouble_unpack x.toModel
  rw [h] at hdouble
  exact hdouble

theorem unpack_zero : (0 : Float).toModel.unpack = .zero .positive := rfl

theorem isSize_zero : IsSize (0 : Float) 0 := .zero .positive unpack_zero

theorem isSize_pack_zero (s : Sign) : IsSize (.ofModel (.pack (.zero s))) 0 :=
  .zero s (unpack_pack_zero s)

theorem isSize_pack (h : Canonical m e) (hm : 0 < m) (he : e ≤ 971) :
    IsSize (.ofModel (.pack (.finite .positive m e hm))) (size m e) :=
  .finite m e hm (unpack_pack_finite h hm he)

/-- The size is that of a mantissa and an exponent in range; those of a zero are the least. -/
theorem IsSize.exists_canonical (h : IsSize x q) :
    ∃ m e, Canonical m e ∧ e ≤ 971 ∧ q = size m e := by
  cases h with
  | zero s h => exact ⟨0, -1074, ⟨by norm_num, le_rfl, .inr rfl⟩, by norm_num, (size_zero _).symm⟩
  | finite m e hm h => exact ⟨m, e, (canonical_of_unpack h).1, (canonical_of_unpack h).2, rfl⟩

theorem IsSize.nonneg (h : IsSize x q) : 0 ≤ q := by
  obtain ⟨m, e, -, -, rfl⟩ := h.exists_canonical
  exact size_nonneg m e

theorem IsSize.isFinite (h : IsSize x q) : Scalar.isFinite x = true := by
  show x.toModel.unpack.isFinite = true
  cases h with
  | zero s h =>
      rw [h]
      rfl
  | finite m e hm h =>
      rw [h]
      rfl

/-- **Doubles compare as their sizes do.** -/
theorem IsSize.le_iff (hx : IsSize x p) (hy : IsSize y q) : x ≤ y ↔ p ≤ q := by
  rw [Scalar.double_le_iff]
  cases hx with
  | zero s hs =>
      cases hy with
      | zero t ht =>
          rw [hs, ht]
          exact iff_of_true rfl le_rfl
      | finite n f hn ht =>
          rw [hs, ht]
          exact iff_of_true rfl (size_nonneg n f)
  | finite m e hm hs =>
      cases hy with
      | zero t ht =>
          rw [hs, ht]
          exact iff_of_false Bool.false_ne_true (not_le.mpr (size_pos hm e))
      | finite n f hn ht =>
          rw [hs, ht]
          exact (canonical_of_unpack hs).1.compare_isLE (canonical_of_unpack ht).1

theorem not_le_of_lt (h : x < y) : ¬ y ≤ x := Scalar.onLine.not_le_of_lt h

/-- Doubles are ordered strictly as their sizes are. -/
theorem IsSize.lt_iff (hx : IsSize x p) (hy : IsSize y q) : x < y ↔ p < q := by
  constructor
  · intro hlt
    by_contra hle
    exact not_le_of_lt hlt ((hy.le_iff hx).mpr (not_lt.mp hle))
  · intro hlt
    refine LawfulScalar.lt_of_not_le hy.isFinite hx.isFinite ?_
    rw [hy.le_iff hx]
    exact not_le.mpr hlt

/-- What is not below zero has a size or is infinite. -/
theorem nonneg_cases (hx : (0 : Float) ≤ x) :
    (∃ q, IsSize x q) ∨ x.toModel.unpack = .infinity .positive := by
  rw [Scalar.double_le_iff, unpack_zero] at hx
  cases h : x.toModel.unpack with
  | notANumber =>
      rw [h] at hx
      exact nomatch hx
  | zero s => exact .inl ⟨0, .zero s h⟩
  | infinity s =>
      cases s with
      | positive => exact .inr rfl
      | negative =>
          rw [h] at hx
          exact nomatch hx
  | finite s m e hm =>
      cases s with
      | positive => exact .inl ⟨size m e, .finite m e hm h⟩
      | negative =>
          rw [h] at hx
          exact nomatch hx

/-- Every finite double that is not negative has a size. -/
theorem exists_isSize (hx : (0 : Float) ≤ x) (hfinite : Scalar.isFinite x = true) :
    ∃ q, IsSize x q := by
  rcases nonneg_cases hx with hsize | hinfinity
  · exact hsize
  · change x.toModel.unpack.isFinite = true at hfinite
    rw [hinfinity] at hfinite
    exact nomatch hfinite

theorem IsSize.zero_le (h : IsSize x q) : (0 : Float) ≤ x := (isSize_zero.le_iff h).mpr h.nonneg

/-- What lies between two sizes has one. -/
theorem exists_isSize_of_mem (hx : IsSize x p) (hz : IsSize z r) (hxy : x ≤ y) (hyz : y ≤ z) :
    ∃ q, IsSize y q ∧ p ≤ q ∧ q ≤ r := by
  have hfinite := LawfulScalar.isFinite_of_mem hx.isFinite hz.isFinite hxy hyz
  obtain ⟨q, hy⟩ := exists_isSize (OrderedScalar.le_trans hx.zero_le hxy) hfinite
  exact ⟨q, hy, (hx.le_iff hy).mp hxy, (hy.le_iff hz).mp hyz⟩

/-! ## §2. Roundings. -/

/-- A double on the same side of every double as the number `q`. -/
structure Rounds (x : Float) (q : ℚ) : Prop where
  le {y : Float} {p : ℚ} : IsSize y p → q ≤ p → x ≤ y
  ge {y : Float} {p : ℚ} : IsSize y p → p ≤ q → y ≤ x

/-- A double is what its own size is rounded to. -/
theorem IsSize.rounds (h : IsSize x q) : Rounds x q where
  le hy hle := (h.le_iff hy).mpr hle
  ge hy hle := (hy.le_iff h).mpr hle

/-- A number that is a double is rounded to itself. -/
theorem Rounds.isSize (h : Rounds x q) (hy : IsSize y q) : IsSize x q := by
  obtain ⟨r, hx, hqr, hrq⟩ := exists_isSize_of_mem hy hy (h.ge hy le_rfl) (h.le hy le_rfl)
  rwa [le_antisymm hqr hrq]

/-- Numbers in order are rounded in order, where the smaller one is a double. -/
theorem Rounds.le_rounds (h : Rounds x p) (h' : Rounds y q) (hz : IsSize z p) (hpq : p ≤ q) :
    x ≤ y :=
  OrderedScalar.le_trans (h.le hz le_rfl) (h'.ge hz hpq)

/-- **What an operation stores is a rounding** of what it computed. -/
theorem rounds_pack (h : Fine m e) :
    Rounds (.ofModel (.pack (roundWithAccuracy Format.binary64 .positive m e .exact)))
      (size m e) := by
  have hholds := holds_round .positive h
  generalize roundWithAccuracy Format.binary64 .positive m e .exact = u at hholds
  have hsides {y : Float} {p : ℚ} (hy : IsSize y p) :
      (size m e ≤ p → size (roundedAt m e) (target m e) ≤ p)
        ∧ (p ≤ size m e → p ≤ size (roundedAt m e) (target m e)) := by
    obtain ⟨n, f, hn, -, rfl⟩ := hy.exists_canonical
    exact rounded_between h hn
  -- Below infinity the result has the size it was rounded to.
  have hstored (hx : IsSize (.ofModel (.pack u)) (size (roundedAt m e) (target m e))) :
      Rounds (.ofModel (.pack u)) (size m e) :=
    ⟨fun hy hle => (hx.le_iff hy).mpr ((hsides hy).1 hle),
      fun hy hle => (hy.le_iff hx).mpr ((hsides hy).2 hle)⟩
  cases u with
  | notANumber => exact hholds.elim
  | infinity s => exact hholds.elim
  | zero s =>
      refine hstored ?_
      rw [hholds.2]
      exact isSize_pack_zero s
  | finite s m' e' hm =>
      obtain ⟨rfl, hcanonical, hsize⟩ := hholds
      by_cases hfits : e' ≤ 971
      · refine hstored ?_
        rw [hsize]
        exact isSize_pack hcanonical hm hfits
      · -- The result is infinite, and so was rounded to a size beyond every double.
        have hunpack := unpack_pack_overflow (s := .positive) hm (lt_of_not_ge hfits)
        constructor
        · intro y p hy hle
          obtain ⟨n, f, hn, hf, rfl⟩ := hy.exists_canonical
          have hlt := hn.size_lt hcanonical (by omega)
          rw [← hsize] at hlt
          exact absurd ((hsides hy).1 hle) (not_le.mpr hlt)
        · intro y p hy hle
          rw [Scalar.double_le_iff]
          show y.toModel.unpack.le (Float.Model.pack (.finite .positive m' e' hm)).unpack = true
          rw [hunpack]
          exact Scalar.unpacked_le_infinity hy.isFinite

/-! ## §3. Products and sums. -/

/-- A product multiplies the mantissas and adds the exponents, and is rounded after that. -/
theorem mul_finite (hm : 0 < m) (hn : 0 < n) (e f : ℤ) :
    UnpackedFloat.mul Format.binary64 (.finite .positive m e hm) (.finite .positive n f hn)
      = roundWithAccuracy Format.binary64 .positive (m * n) (e + f) .exact := rfl

/-- **Products are rounded once.** -/
theorem rounds_mul (hx : IsSize x p) (hy : IsSize y q) : Rounds (x * y) (p * q) := by
  show Rounds (.ofModel (.pack (UnpackedFloat.mul Format.binary64 x.toModel.unpack
    y.toModel.unpack))) (p * q)
  cases hx with
  | zero s hs =>
      rw [zero_mul]
      cases hy with
      | zero t ht =>
          rw [hs, ht]
          exact (isSize_pack_zero _).rounds
      | finite n f hn ht =>
          rw [hs, ht]
          exact (isSize_pack_zero _).rounds
  | finite m e hm hs =>
      cases hy with
      | zero t ht =>
          rw [hs, ht, mul_zero]
          exact (isSize_pack_zero _).rounds
      | finite n f hn ht =>
          rw [hs, ht, mul_finite, ← size_mul]
          exact rounds_pack (fine_mul (canonical_of_unpack hs).1 (canonical_of_unpack ht).1 hm hn)

/-- Numbers of any exponent are rounded once. -/
theorem rounds_normalize (m : ℕ) (e : ℤ) :
    Rounds (.ofModel (.pack (UnpackedFloat.normalize Format.binary64 (m : ℤ) e .positive)))
      (size m e) := by
  rcases Nat.eq_zero_or_pos m with rfl | hpos
  · have hzero : UnpackedFloat.normalize Format.binary64 ((0 : ℕ) : ℤ) e .positive
        = .zero .positive := rfl
    rw [hzero, size_zero]
    exact (isSize_pack_zero _).rounds
  · have hgt : compare (m : ℤ) 0 = .gt := compare_gt_iff_gt.mpr (by omega)
    have hsize : size m e = size (m <<< (e - target m e).toNat) (e - (e - target m e).toNat) := by
      rw [Nat.shiftLeft_eq, size_shift, sub_add_cancel]
    unfold UnpackedFloat.normalize
    rw [hgt, hsize]
    show Rounds (.ofModel (.pack (UnpackedFloat.round Format.binary64 .positive m e))) _
    unfold UnpackedFloat.round
    rw [targetExponent_eq]
    exact rounds_pack (fine_decrease hpos e)

/-- A sum is taken at the lower exponent, where no bit is lost, and is rounded after that. -/
theorem add_finite (hm : 0 < m) (hn : 0 < n) (e f : ℤ) :
    UnpackedFloat.add Format.binary64 (.finite .positive m e hm) (.finite .positive n f hn)
      = UnpackedFloat.normalize Format.binary64
          ((m <<< (e - min e f).toNat + n <<< (f - min e f).toNat : ℕ) : ℤ) (min e f)
          .positive := by
  rw [Nat.cast_add]
  rfl

/-- The mantissas are added at the smaller exponent. -/
theorem size_add (m n : ℕ) (e f : ℤ) :
    size (m <<< (e - min e f).toNat + n <<< (f - min e f).toNat) (min e f)
      = size m e + size n f := by
  have haligned (k : ℕ) (g : ℤ) (hg : min e f ≤ g) :
      size k g = size (k <<< (g - min e f).toNat) (min e f) := by
    rw [Nat.shiftLeft_eq, size_shift]
    congr 1
    omega
  rw [haligned m e (min_le_left e f), haligned n f (min_le_right e f)]
  unfold size
  rw [Nat.cast_add, add_mul]

/-- **Sums are rounded once.** -/
theorem rounds_add (hx : IsSize x p) (hy : IsSize y q) : Rounds (x + y) (p + q) := by
  show Rounds (.ofModel (.pack (UnpackedFloat.add Format.binary64 x.toModel.unpack
    y.toModel.unpack))) (p + q)
  -- A zero adds nothing; otherwise both are brought to one exponent.
  cases hx with
  | zero s hs =>
      rw [zero_add]
      cases hy with
      | zero t ht =>
          rw [hs, ht]
          cases s <;> cases t <;> exact (isSize_pack_zero _).rounds
      | finite n f hn ht =>
          obtain ⟨hcanonical, hf⟩ := canonical_of_unpack ht
          rw [hs, ht]
          exact (isSize_pack hcanonical hn hf).rounds
  | finite m e hm hs =>
      cases hy with
      | zero t ht =>
          obtain ⟨hcanonical, he⟩ := canonical_of_unpack hs
          rw [hs, ht, add_zero]
          exact (isSize_pack hcanonical hm he).rounds
      | finite n f hn ht =>
          rw [hs, ht, add_finite, ← size_add]
          exact rounds_normalize _ _

/-! ## §4. Whole numbers. -/

/-- **Words are rounded once.** -/
theorem rounds_toFloat (n : UInt64) : Rounds n.toFloat n.toNat := by
  rw [← size_natCast]
  exact rounds_normalize n.toNat 0

/-- The whole numbers of up to 53 bits are doubles. -/
theorem exists_isSize_natCast (hn : n < 2 ^ 53) : ∃ y : Float, IsSize y n := by
  rcases Nat.eq_zero_or_pos n with rfl | hpos
  · rw [Nat.cast_zero]
    exact ⟨0, isSize_zero⟩
  · obtain ⟨m, e, hm, hcanonical, he, hsize⟩ := exists_canonical hpos hn
    rw [← hsize]
    exact ⟨_, isSize_pack hcanonical hm he⟩

/-- Below `2^53` a word is converted without a loss. -/
theorem isSize_toFloat {n : UInt64} (hn : n.toNat < 2 ^ 53) : IsSize n.toFloat n.toNat := by
  obtain ⟨y, hy⟩ := exists_isSize_natCast hn
  exact (rounds_toFloat n).isSize hy

/-- **Literals are rounded once.** -/
theorem rounds_ofNat (n : ℕ) : Rounds (Scalar.ofNat n : Float) n := by
  show Rounds (if n = 0 then 0 else if false = true then _ else
    if 400 < 0 then _ else Float.ofScientific n false 0) n
  by_cases hzero : n = 0
  · rw [if_pos hzero, hzero, Nat.cast_zero]
    exact isSize_zero.rounds
  · rw [if_neg hzero, if_neg Bool.false_ne_true, if_neg (by decide)]
    unfold Float.ofScientific
    by_cases hsmall : n < 2 ^ 53
    · -- The literal is a word times one.
      have hone : IsSize (Float.ofBits 0x3FF0000000000000) 1 := by
        have hsize : size (2 ^ 52) (-52) = 1 := by
          unfold size
          norm_num
        rw [← hsize]
        exact .finite _ _ _ rfl
      have hword : n.toUInt64.toNat = n := Nat.mod_eq_of_lt (by omega)
      have hfloat : IsSize n.toUInt64.toFloat n := by
        have h := isSize_toFloat (n := n.toUInt64) (by rwa [hword])
        rwa [hword] at h
      have h := rounds_mul hfloat hone
      rw [mul_one] at h
      rw [dif_pos ⟨hsmall, by decide⟩, if_neg Bool.false_ne_true]
      exact h
    · -- The literal is rounded from a mantissa with more bits than fit.
      have hexponent : Format.binary64.exponentBits = 11 := rfl
      have hbits : Format.binary64.mantissaBits = 53 := rfl
      have hfine : Fine (n <<< 53 * 10 ^ 0) (-(53 : ℕ) + 0) := by
        rw [Nat.shiftLeft_eq]
        exact .inl (by omega)
      have hsize : size (n <<< 53 * 10 ^ 0) (-(53 : ℕ) + 0) = n := by
        rw [Nat.shiftLeft_eq, pow_zero, mul_one, size_shift]
        exact size_natCast n
      rw [dif_neg (by omega)]
      show Rounds (.ofModel (.pack (UnpackedFloat.ofScientific Format.binary64 n 0))) n
      unfold UnpackedFloat.ofScientific
      rw [dif_neg hzero, hexponent, if_neg (by decide), if_neg (by omega), if_pos le_rfl,
        mul_finite, hbits, Int.toNat_zero, ← hsize]
      exact rounds_pack hfine

/-- Below `2^53` any whole number is converted without a loss. -/
theorem isSize_ofNat (hn : n < 2 ^ 53) : IsSize (Scalar.ofNat n : Float) n := by
  obtain ⟨y, hy⟩ := exists_isSize_natCast hn
  exact (rounds_ofNat n).isSize hy

theorem zero_le_ofNat (n : ℕ) : (0 : Float) ≤ Scalar.ofNat n :=
  (rounds_ofNat n).ge isSize_zero (Nat.cast_nonneg n)

/-- Every number of 64 bits is converted to a finite one. -/
theorem isFinite_ofNat (hn : n ≤ Scalar.doubleWordMax) :
    Scalar.isFinite (Scalar.ofNat n : Float) = true := by
  have hlimit : IsSize (18446744073709551616 : Float) (2 ^ 64) := by
    have hsize : size (2 ^ 52) 12 = 2 ^ 64 := by
      unfold size
      norm_num
    rw [← hsize]
    exact .finite _ _ _ rfl
  have hle : (n : ℚ) ≤ 2 ^ 64 := by
    unfold Scalar.doubleWordMax at hn
    exact_mod_cast hn.trans (by norm_num)
  exact LawfulScalar.isFinite_of_mem isSize_zero.isFinite hlimit.isFinite (zero_le_ofNat n)
    ((rounds_ofNat n).le hlimit hle)

/-! ## §5. Undefined and infinite results. -/

theorem isUndefined_iff : Scalar.isUndefined x = true ↔ x.toModel.unpack = .notANumber := by
  rw [← not_iff_not, Bool.not_eq_true, Scalar.onLine.isUndefined_iff]
  cases x.toModel.unpack with
  | notANumber => exact iff_of_false (fun ⟨_, h⟩ => nomatch h) (fun h => h rfl)
  | infinity s => cases s <;> exact iff_of_true ⟨_, rfl⟩ (fun h => nomatch h)
  | zero s => exact iff_of_true ⟨_, rfl⟩ (fun h => nomatch h)
  | finite s m e hm => cases s <;> exact iff_of_true ⟨_, rfl⟩ (fun h => nomatch h)

/-- A product with an undefined factor is undefined. -/
theorem isUndefined_mul (hx : Scalar.isUndefined x = true) :
    Scalar.isUndefined (x * y) = true := by
  rw [isUndefined_iff] at hx ⊢
  show (Float.Model.pack (UnpackedFloat.mul Format.binary64 x.toModel.unpack
    y.toModel.unpack)).unpack = _
  rw [unpack_pack_iff, hx]
  rfl

/-- A rounded number is a number, though it may be too large to be stored as one. -/
theorem roundWithAccuracy_ne_notANumber (s : Sign) (m : ℕ) (e : ℤ) (a : Accuracy) :
    roundWithAccuracy Format.binary64 s m e a ≠ .notANumber := by
  unfold roundWithAccuracy
  dsimp only
  generalize shiftToTargetExponent Format.binary64 _ _ .exact = final
  by_cases hzero : final.1.mantissa = 0
  · rw [dif_pos hzero]
    rintro ⟨⟩
  · rw [dif_neg hzero]
    rintro ⟨⟩

/-- **A quotient by something that is not at most zero is undefined** where an operand is,
or where both are infinite. -/
theorem isUndefined_div (hy : ¬ y ≤ 0) : Scalar.isUndefined (x / y) = true ↔
    Scalar.isUndefined x = true ∨ Scalar.isUndefined y = true
      ∨ Scalar.isFinite x = false ∧ Scalar.isFinite y = false := by
  rw [Scalar.double_le_iff, unpack_zero] at hy
  rw [isUndefined_iff, isUndefined_iff, isUndefined_iff]
  show (Float.Model.pack (UnpackedFloat.div Format.binary64 x.toModel.unpack
    y.toModel.unpack)).unpack = _ ↔ _ ∨ _ ∨ x.toModel.unpack.isFinite = false
      ∧ y.toModel.unpack.isFinite = false
  rw [unpack_pack_iff]
  generalize x.toModel.unpack = u
  generalize y.toModel.unpack = v at hy
  -- Where the quotient is defined, none of the three is the case.
  have hnone (hu : u ≠ .notANumber) (hv : v ≠ .notANumber)
      (hfinite : u.isFinite = true ∨ v.isFinite = true) :
      ¬ (u = .notANumber ∨ v = .notANumber ∨ u.isFinite = false ∧ v.isFinite = false) := by
    rintro (h | h | ⟨h, h'⟩)
    · exact hu h
    · exact hv h
    · rw [h, h'] at hfinite
      exact Bool.false_ne_true (or_self_iff.mp hfinite)
  cases v with
  | notANumber =>
      refine iff_of_true ?_ (.inr (.inl rfl))
      cases u <;> rfl
  | zero t => exact absurd rfl hy
  | infinity t =>
      cases u with
      | notANumber => exact iff_of_true rfl (.inl rfl)
      | infinity s => exact iff_of_true rfl (.inr (.inr ⟨rfl, rfl⟩))
      | zero s =>
          exact iff_of_false (by rintro ⟨⟩) (hnone (by rintro ⟨⟩) (by rintro ⟨⟩) (.inl rfl))
      | finite s m e hm =>
          exact iff_of_false (by rintro ⟨⟩) (hnone (by rintro ⟨⟩) (by rintro ⟨⟩) (.inl rfl))
  | finite t n f hn =>
      cases u with
      | notANumber => exact iff_of_true rfl (.inl rfl)
      | infinity s =>
          exact iff_of_false (by rintro ⟨⟩) (hnone (by rintro ⟨⟩) (by rintro ⟨⟩) (.inr rfl))
      | zero s =>
          exact iff_of_false (by rintro ⟨⟩) (hnone (by rintro ⟨⟩) (by rintro ⟨⟩) (.inr rfl))
      | finite s m e hm =>
          exact iff_of_false (roundWithAccuracy_ne_notANumber _ _ _ _)
            (hnone (by rintro ⟨⟩) (by rintro ⟨⟩) (.inr rfl))

/-- A quotient of something infinite or undefined stays so. -/
theorem isFinite_div (hx : Scalar.isFinite x = false) (hy : Scalar.isFinite y = true) :
    Scalar.isFinite (x / y) = false := by
  change x.toModel.unpack.isFinite = false at hx
  change y.toModel.unpack.isFinite = true at hy
  show (Float.Model.pack (UnpackedFloat.div Format.binary64 x.toModel.unpack
    y.toModel.unpack)).unpack.isFinite = false
  generalize x.toModel.unpack = u at hx
  generalize y.toModel.unpack = v at hy
  -- Infinity by a finite number is infinite, and undefined stays so.
  have hdiv : UnpackedFloat.div Format.binary64 u v = .notANumber
      ∨ ∃ s, UnpackedFloat.div Format.binary64 u v = .infinity s := by
    cases u with
    | notANumber => exact .inl rfl
    | zero s => exact nomatch hx
    | finite s m e hm => exact nomatch hx
    | infinity s =>
        cases v with
        | notANumber => exact nomatch hy
        | infinity t => exact nomatch hy
        | zero t => exact .inr ⟨_, rfl⟩
        | finite t n f hn => exact .inr ⟨_, rfl⟩
  rcases hdiv with hundefined | ⟨s, hs⟩
  · rw [hundefined]
    rfl
  · rw [hs]
    cases s <;> rfl

end GifEdit.Double
