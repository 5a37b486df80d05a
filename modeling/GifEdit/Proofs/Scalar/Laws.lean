/-
  GifEdit.Proofs.Scalar.Laws
  ──────────────────────────
  **WHAT DOUBLES AND EXACT NUMBERS HAVE IN COMMON.**

  Sums and products of doubles are rounded, so little of the arithmetic of rationals holds
  of them.  The order does not depend on rounding, and neither do the ends of the number
  line:

      finite numbers lie on a line, with nothing but finite numbers between them
      positive infinity is above every finite number, also when a finite number is added

  The checks of an edit need no more than that.  Both instances have these laws.
-/
import GifEdit.Scalar.Binary
import GifEdit.Proofs.Scalar.Exact

namespace GifEdit

/-- Numbers whose order and ends are those of the extended number line. -/
class LawfulScalar (α : Type) [Scalar α] : Prop where
  lt_of_not_le {a b : α} : Scalar.isFinite a = true → Scalar.isFinite b = true → ¬ a ≤ b → b < a
  isFinite_of_mem {a b x : α} :
    Scalar.isFinite a = true → Scalar.isFinite b = true → a ≤ x → x ≤ b → Scalar.isFinite x = true
  le_infinity_add {x e : α} :
    Scalar.isFinite x = true → Scalar.isFinite e = true → x ≤ Scalar.infinity + e
  /-- A decimal of one digit and at most nine places is finite. -/
  isFinite_ofScientific {m e : Nat} (hm : m < 10) (he : e < 10) (below : Bool) :
    Scalar.isFinite (Scalar.ofScientific m below e : α) = true

/-! ## §1. Exact numbers. -/

instance : LawfulScalar Exact where
  lt_of_not_le ha hb h := by
    obtain ⟨p, rfl⟩ := Exact.isFinite_iff.mp ha
    obtain ⟨q, rfl⟩ := Exact.isFinite_iff.mp hb
    rw [Exact.rational_le, not_le] at h
    exact Exact.rational_lt.mpr h
  isFinite_of_mem ha hb hlow hhigh := by
    obtain ⟨p, rfl⟩ := Exact.isFinite_iff.mp ha
    obtain ⟨q, rfl⟩ := Exact.isFinite_iff.mp hb
    obtain ⟨r, rfl, -⟩ := Exact.exists_of_mem hlow hhigh
    rfl
  le_infinity_add hx he := by
    obtain ⟨p, rfl⟩ := Exact.isFinite_iff.mp hx
    obtain ⟨q, rfl⟩ := Exact.isFinite_iff.mp he
    rfl
  isFinite_ofScientific _ _ _ := rfl

/-! ## §2. Doubles.

Doubles are compared in their unpacked forms: by sign, and finite numbers of one sign by
exponent and then by mantissa. -/

namespace Scalar

open Float.Model (Format UnpackedFloat)

variable {u v w : UnpackedFloat}

/-- The order by exponent and mantissa, the other way round. -/
theorem compare_swap (e e' : Int) (m m' : Nat) :
    (compare e' e).then (compare m' m) = ((compare e e').then (compare m m')).swap := by
  rw [Ordering.swap_then, ← Std.OrientedOrd.eq_swap, ← Std.OrientedOrd.eq_swap]

theorem unpacked_lt_of_not_le (hu : u.isFinite = true) (hv : v.isFinite = true)
    (h : u.le v = false) : v.lt u = true := by
  cases u with
  | infinity s => exact nomatch hu
  | notANumber => exact nomatch hu
  | zero s =>
      cases v with
      | infinity t => exact nomatch hv
      | notANumber => exact nomatch hv
      | zero t => exact nomatch h
      | finite t m e hm =>
          cases t with
          | positive => exact nomatch h
          | negative => rfl
  | finite s m e hm =>
      cases v with
      | infinity t => exact nomatch hv
      | notANumber => exact nomatch hv
      | zero t =>
          cases s with
          | positive => rfl
          | negative => exact nomatch h
      | finite t m' e' hm' =>
          -- Only two numbers of one sign are compared by more than their signs.
          cases s with
          | positive =>
              cases t with
              | negative => rfl
              | positive =>
                  have hgt := Ordering.isLE_eq_false.mp h
                  show (some ((compare e' e).then (compare m' m)) == some .lt) = true
                  rw [compare_swap, hgt]
                  rfl
          | negative =>
              cases t with
              | positive => exact nomatch h
              | negative =>
                  have hgt := Ordering.isLE_eq_false.mp h
                  show (some ((compare e' e).then (compare m' m)).swap == some .lt) = true
                  rw [compare_swap, hgt]
                  rfl

theorem unpacked_isFinite_of_mem (hu : u.isFinite = true) (hv : v.isFinite = true)
    (hlow : u.le w = true) (hhigh : w.le v = true) : w.isFinite = true := by
  cases w with
  | zero s => rfl
  | finite s m e hm => rfl
  | notANumber => cases u <;> exact nomatch hlow
  | infinity s =>
      cases s with
      | positive =>
          cases v with
          | infinity t => exact nomatch hv
          | notANumber => exact nomatch hv
          | zero t => exact nomatch hhigh
          | finite t m e hm => cases t <;> exact nomatch hhigh
      | negative =>
          cases u with
          | infinity t => exact nomatch hu
          | notANumber => exact nomatch hu
          | zero t => exact nomatch hlow
          | finite t m e hm => cases t <;> exact nomatch hlow

theorem unpacked_add_infinity (hu : u.isFinite = true) :
    UnpackedFloat.add Format.binary64 (.infinity .positive) u = .infinity .positive := by
  cases u with
  | infinity s => exact nomatch hu
  | notANumber => exact nomatch hu
  | zero s => rfl
  | finite s m e hm => rfl

theorem unpacked_le_infinity (hu : u.isFinite = true) : u.le (.infinity .positive) = true := by
  cases u with
  | infinity s => exact nomatch hu
  | notANumber => exact nomatch hu
  | zero s => rfl
  | finite s m e hm => cases s <;> rfl

theorem double_le_iff {a b : Float} : a ≤ b ↔ a.toModel.unpack.le b.toModel.unpack = true :=
  decide_eq_true_iff

theorem double_lt_iff {a b : Float} : a < b ↔ a.toModel.unpack.lt b.toModel.unpack = true :=
  decide_eq_true_iff

/-- A finite number added to positive infinity does not lower it. -/
theorem unpack_infinity_add {e : Float} (he : isFinite e = true) :
    (infinity + e : Float).toModel.unpack = .infinity .positive := by
  have hinfinity : (infinity : Float).toModel.unpack = .infinity .positive := rfl
  show (Float.Model.pack (UnpackedFloat.add Format.binary64 (infinity : Float).toModel.unpack
    e.toModel.unpack)).unpack = .infinity .positive
  rw [hinfinity, unpacked_add_infinity he]
  rfl

end Scalar

instance : LawfulScalar Float where
  lt_of_not_le {a b} ha hb h := by
    have hle : a.toModel.unpack.le b.toModel.unpack = false :=
      Bool.eq_false_iff.mpr (mt Scalar.double_le_iff.mpr h)
    exact Scalar.double_lt_iff.mpr (Scalar.unpacked_lt_of_not_le ha hb hle)
  isFinite_of_mem ha hb hlow hhigh :=
    Scalar.unpacked_isFinite_of_mem ha hb (Scalar.double_le_iff.mp hlow)
      (Scalar.double_le_iff.mp hhigh)
  le_infinity_add {x e} hx he := by
    refine Scalar.double_le_iff.mpr ?_
    rw [Scalar.unpack_infinity_add he]
    exact Scalar.unpacked_le_infinity hx
  isFinite_ofScientific {m e} hm he below := by
    have hall : ∀ m < 10, ∀ e < 10, ∀ below : Bool,
        Scalar.isFinite (Scalar.ofScientific m below e : Float) = true := by decide +kernel
    exact hall m hm e he below

end GifEdit
