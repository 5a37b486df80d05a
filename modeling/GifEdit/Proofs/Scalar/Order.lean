/-
  GifEdit.Proofs.Scalar.Order
  ───────────────────────────
  **THE LINE OF DEFINED NUMBERS.**

  The undefined value compares false with everything, so the order of scalars is no
  total one.  On all other numbers it is, the infinities among them, and neither rounding
  nor the two zeros get in its way: every defined number has a place on a line, and numbers
  compare as their places do.

      exact numbers   (class, rational)
      doubles         (class, exponent, mantissa)

  Selections need no more than that.  They are defined where one of their operands is,
  and what is clamped lies between its bounds, whatever it was before.

  The lemmas:

    * `compare_eq`   — doubles compare as their places do,
    * `max_min_mem`  — what is capped and then raised lies between the bounds,
    * `beq_max_min`  — what lies there already stays where it is,
    * `clamp_mem`    — a clamp puts it there too, but only a defined number.
-/
import GifEdit.Proofs.Scalar.Laws
import Mathlib.Data.Prod.Lex

namespace GifEdit

/-- Numbers that lie on a line, but for the undefined ones. -/
class OrderedScalar (α : Type) [Scalar α] : Prop where
  isUndefined_zero : Scalar.isUndefined (0 : α) = false
  isUndefined_of_le {a b : α} :
    a ≤ b → Scalar.isUndefined a = false ∧ Scalar.isUndefined b = false
  le_of_lt {a b : α} : a < b → a ≤ b
  le_of_not_lt {a b : α} : Scalar.isUndefined a = false → Scalar.isUndefined b = false →
    ¬ a < b → b ≤ a
  le_trans {a b c : α} : a ≤ b → b ≤ c → a ≤ c
  beq_iff {a b : α} : (a == b) = true ↔ a ≤ b ∧ b ≤ a

/-! ## §1. Places on a line. -/

/-- Numbers compare as their places do, and zero has one. -/
structure OnLine {α L : Type} [Scalar α] [LinearOrder L] (place : α → Option L) : Prop where
  zero : (place 0).isSome = true
  le_iff {a b : α} : a ≤ b ↔ ∃ p ∈ place a, ∃ q ∈ place b, p ≤ q
  lt_iff {a b : α} : a < b ↔ ∃ p ∈ place a, ∃ q ∈ place b, p < q
  beq_iff {a b : α} : (a == b) = true ↔ ∃ p ∈ place b, p ∈ place a

namespace OnLine

variable {α L : Type} [Scalar α] [LinearOrder L] {place : α → Option L} {a b : α}

/-- The defined numbers are those that have a place. -/
theorem isUndefined_iff (h : OnLine place) :
    Scalar.isUndefined a = false ↔ ∃ p, place a = some p := by
  unfold Scalar.isUndefined
  rw [Bool.not_eq_false', h.beq_iff]
  constructor
  · rintro ⟨p, hp, -⟩
    exact ⟨p, hp⟩
  · rintro ⟨p, hp⟩
    exact ⟨p, hp, hp⟩

theorem not_le_of_lt (h : OnLine place) (hlt : a < b) : ¬ b ≤ a := by
  intro hle
  obtain ⟨p, hp, q, hq, hpq⟩ := h.lt_iff.mp hlt
  obtain ⟨q', hq', p', hp', hqp⟩ := h.le_iff.mp hle
  obtain rfl := Option.mem_unique hp hp'
  obtain rfl := Option.mem_unique hq hq'
  exact absurd hpq (not_lt.mpr hqp)

/-- **Numbers with places on a line** are ordered by it. -/
theorem orderedScalar (h : OnLine place) : OrderedScalar α where
  isUndefined_zero := h.isUndefined_iff.mpr (Option.isSome_iff_exists.mp h.zero)
  isUndefined_of_le hle := by
    obtain ⟨p, hp, q, hq, -⟩ := h.le_iff.mp hle
    exact ⟨h.isUndefined_iff.mpr ⟨p, hp⟩, h.isUndefined_iff.mpr ⟨q, hq⟩⟩
  le_of_lt hlt := by
    obtain ⟨p, hp, q, hq, hpq⟩ := h.lt_iff.mp hlt
    exact h.le_iff.mpr ⟨p, hp, q, hq, hpq.le⟩
  le_of_not_lt ha hb hnot := by
    obtain ⟨p, hp⟩ := h.isUndefined_iff.mp ha
    obtain ⟨q, hq⟩ := h.isUndefined_iff.mp hb
    refine h.le_iff.mpr ⟨q, hq, p, hp, not_lt.mp fun hpq => ?_⟩
    exact hnot (h.lt_iff.mpr ⟨p, hp, q, hq, hpq⟩)
  le_trans hab hbc := by
    obtain ⟨p, hp, q, hq, hpq⟩ := h.le_iff.mp hab
    obtain ⟨q', hq', r, hr, hqr⟩ := h.le_iff.mp hbc
    -- Both comparisons speak of one place, as a number has no more than that.
    obtain rfl := Option.mem_unique hq hq'
    exact h.le_iff.mpr ⟨p, hp, r, hr, hpq.trans hqr⟩
  beq_iff := by
    intro a b
    constructor
    · intro hbeq
      obtain ⟨p, hb, ha⟩ := h.beq_iff.mp hbeq
      exact ⟨h.le_iff.mpr ⟨p, ha, p, hb, le_rfl⟩, h.le_iff.mpr ⟨p, hb, p, ha, le_rfl⟩⟩
    · rintro ⟨hab, hba⟩
      obtain ⟨p, hp, q, hq, hpq⟩ := h.le_iff.mp hab
      obtain ⟨q', hq', p', hp', hqp⟩ := h.le_iff.mp hba
      obtain rfl := Option.mem_unique hp hp'
      obtain rfl := Option.mem_unique hq hq'
      obtain rfl := le_antisymm hpq hqp
      exact h.beq_iff.mpr ⟨p, hq, hp⟩

end OnLine

/-! ## §2. Exact numbers. -/

namespace Exact

/-- The place of an exact number: the infinities lie on either side of the rationals. -/
def place? : Exact → Option (ℤ ×ₗ ℚ)
  | undefined => none
  | negInfinity => some (toLex (-1, 0))
  | rational q => some (toLex (0, q))
  | posInfinity => some (toLex (1, 0))

theorem onLine : OnLine place? where
  zero := rfl
  le_iff {a b} := by
    show a.le b = true ↔ _
    cases a <;> cases b <;> simp [le, place?, Prod.Lex.toLex_le_toLex]
  lt_iff {a b} := by
    show a.lt b = true ↔ _
    cases a <;> cases b <;> simp [lt, place?, Prod.Lex.toLex_lt_toLex]
  beq_iff {a b} := by
    show a.eq b = true ↔ _
    cases a <;> cases b <;> simp [eq, place?]

end Exact

instance : OrderedScalar Exact := Exact.onLine.orderedScalar

/-! ## §3. Doubles. -/

namespace Scalar

open Float.Model (UnpackedFloat)

/-- The place of a double: numbers of one sign lie by exponent and then by mantissa,
negative ones the other way round. -/
def place? : UnpackedFloat → Option (ℤ ×ₗ ℤ ×ₗ ℤ)
  | .notANumber => none
  | .infinity .negative => some (toLex (-2, toLex (0, 0)))
  | .finite .negative m e _ => some (toLex (-1, toLex (-e, -m)))
  | .zero _ => some (toLex (0, toLex (0, 0)))
  | .finite .positive m e _ => some (toLex (1, toLex (e, m)))
  | .infinity .positive => some (toLex (2, toLex (0, 0)))

/-- Whole numbers compare as integers. -/
theorem compare_natCast (m m' : ℕ) : compare (m : ℤ) (m' : ℤ) = compare m m' := by
  rw [← cmp_eq_compare, ← cmp_eq_compare]
  exact Nat.strictMono_cast.cmp_map_eq m m'

/-- A change of sign turns the order round. -/
theorem compare_neg_neg (e e' : ℤ) : compare (-e) (-e') = (compare e e').swap := by
  rw [← Std.OrientedOrd.eq_swap, ← cmp_eq_compare, ← cmp_eq_compare]
  exact StrictAnti.cmp_map_eq (fun _ _ h => neg_lt_neg h) e e'

/-- **Doubles compare as their places do.** -/
theorem compare_eq (u v : UnpackedFloat) :
    u.compare v = (place? u).bind fun p => (place? v).map (compare p) := by
  cases u with
  | notANumber => cases v <;> rfl
  | infinity s =>
      cases v with
      | notANumber => cases s <;> rfl
      | infinity t => cases s <;> cases t <;> rfl
      | zero t => cases s <;> rfl
      | finite t m' e' hm' => cases s <;> cases t <;> rfl
  | zero s =>
      cases v with
      | notANumber => rfl
      | infinity t => cases t <;> rfl
      | zero t => rfl
      | finite t m' e' hm' => cases t <;> rfl
  | finite s m e hm =>
      cases v with
      | notANumber => cases s <;> rfl
      | infinity t => cases s <;> cases t <;> rfl
      | zero t => cases s <;> rfl
      | finite t m' e' hm' =>
          -- Only two numbers of one sign are compared by more than their signs.
          cases s with
          | positive =>
              cases t with
              | negative => rfl
              | positive =>
                  show some ((compare e e').then (compare m m'))
                    = some ((compare e e').then (compare (m : ℤ) (m' : ℤ)))
                  rw [compare_natCast]
          | negative =>
              cases t with
              | positive => rfl
              | negative =>
                  show some ((compare e e').then (compare m m')).swap
                    = some ((compare (-e) (-e')).then (compare (-(m : ℤ)) (-(m' : ℤ))))
                  rw [compare_neg_neg, compare_neg_neg, compare_natCast, Ordering.swap_then]

theorem onLine : OnLine fun x : Float => place? x.toModel.unpack where
  zero := by decide +kernel
  le_iff {a b} := by
    rw [double_le_iff]
    unfold UnpackedFloat.le
    rw [compare_eq]
    cases place? a.toModel.unpack <;> cases place? b.toModel.unpack <;>
      simp [← Ordering.ne_gt_iff_isLE, compare_le_iff_le]
  lt_iff {a b} := by
    rw [double_lt_iff]
    unfold UnpackedFloat.lt
    rw [compare_eq]
    cases place? a.toModel.unpack <;> cases place? b.toModel.unpack <;>
      simp [compare_lt_iff_lt]
  beq_iff {a b} := by
    show a.toModel.unpack.beq b.toModel.unpack = true ↔ _
    unfold UnpackedFloat.beq
    rw [compare_eq]
    cases place? a.toModel.unpack <;> cases place? b.toModel.unpack <;>
      simp [compare_eq_iff_eq]

end Scalar

instance : OrderedScalar Float := Scalar.onLine.orderedScalar

/-! ## §4. Selections. -/

namespace Scalar

variable {α : Type} [Scalar α] {a b : α}

/-- A defined number is equal to itself. -/
theorem beq_self (ha : isUndefined a = false) : (a == a) = true := (Bool.not_eq_false' _).mp ha

/-- A selection is one of its operands, and a defined one if there is one. -/
theorem isUndefined_min (h : isUndefined a = false ∨ isUndefined b = false) :
    isUndefined (Scalar.min a b) = false := by
  unfold Scalar.min
  cases ha : isUndefined a <;> cases hb : isUndefined b <;> grind

theorem isUndefined_max (h : isUndefined a = false ∨ isUndefined b = false) :
    isUndefined (Scalar.max a b) = false := by
  unfold Scalar.max
  cases ha : isUndefined a <;> cases hb : isUndefined b <;> grind

variable [OrderedScalar α]

theorem le_self (ha : isUndefined a = false) : a ≤ a :=
  (OrderedScalar.beq_iff.mp (beq_self ha)).1

theorem beq_trans {c : α} (hab : (a == b) = true) (hbc : (b == c) = true) : (a == c) = true := by
  obtain ⟨hab, hba⟩ := OrderedScalar.beq_iff.mp hab
  obtain ⟨hbc, hcb⟩ := OrderedScalar.beq_iff.mp hbc
  exact OrderedScalar.beq_iff.mpr
    ⟨OrderedScalar.le_trans hab hbc, OrderedScalar.le_trans hcb hba⟩

/-- Of two defined numbers the smaller one is selected. -/
theorem min_mem (ha : isUndefined a = false) (hb : isUndefined b = false) :
    Scalar.min a b = a ∧ a ≤ b ∨ Scalar.min a b = b ∧ b ≤ a := by
  unfold Scalar.min
  rw [if_neg (Bool.eq_false_iff.mp ha), if_neg (Bool.eq_false_iff.mp hb)]
  by_cases hlt : a < b
  · exact .inl ⟨if_pos hlt, OrderedScalar.le_of_lt hlt⟩
  · exact .inr ⟨if_neg hlt, OrderedScalar.le_of_not_lt ha hb hlt⟩

/-- Of two defined numbers the larger one is selected. -/
theorem max_mem (ha : isUndefined a = false) (hb : isUndefined b = false) :
    Scalar.max a b = a ∧ b ≤ a ∨ Scalar.max a b = b ∧ a ≤ b := by
  unfold Scalar.max
  rw [if_neg (Bool.eq_false_iff.mp ha), if_neg (Bool.eq_false_iff.mp hb)]
  by_cases hlt : b < a
  · exact .inl ⟨if_pos hlt, OrderedScalar.le_of_lt hlt⟩
  · exact .inr ⟨if_neg hlt, OrderedScalar.le_of_not_lt hb ha hlt⟩

/-- What is capped ends below the cap, whatever it was. -/
theorem min_le_right (a : α) (hb : isUndefined b = false) : Scalar.min a b ≤ b := by
  cases ha : isUndefined a with
  | true =>
      unfold Scalar.min
      rw [if_pos ha]
      exact le_self hb
  | false =>
      obtain ⟨hmin, hle⟩ | ⟨hmin, -⟩ := min_mem ha hb
      · rw [hmin]
        exact hle
      · rw [hmin]
        exact le_self hb

/-- What is raised ends above the floor, whatever it was. -/
theorem le_max_right (a : α) (hb : isUndefined b = false) : b ≤ Scalar.max a b := by
  cases ha : isUndefined a with
  | true =>
      unfold Scalar.max
      rw [if_pos ha]
      exact le_self hb
  | false =>
      obtain ⟨hmax, hle⟩ | ⟨hmax, -⟩ := max_mem ha hb
      · rw [hmax]
        exact hle
      · rw [hmax]
        exact le_self hb

/-- **What is capped and then raised lies between the bounds**, whatever it was. -/
theorem max_min_mem (v : α) {lo hi : α} (h : lo ≤ hi) :
    lo ≤ Scalar.max (Scalar.min v hi) lo ∧ Scalar.max (Scalar.min v hi) lo ≤ hi := by
  obtain ⟨hlo, hhi⟩ := OrderedScalar.isUndefined_of_le h
  refine ⟨le_max_right _ hlo, ?_⟩
  obtain ⟨hmax, -⟩ | ⟨hmax, -⟩ := max_mem (isUndefined_min (a := v) (.inr hhi)) hlo
  · rw [hmax]
    exact min_le_right v hhi
  · rw [hmax]
    exact h

/-- What lies there already stays where it is. -/
theorem beq_max_min {v lo hi : α} (hlo : lo ≤ v) (hhi : v ≤ hi) :
    (v == Scalar.max (Scalar.min v hi) lo) = true := by
  obtain ⟨hl, hv⟩ := OrderedScalar.isUndefined_of_le hlo
  have hh := (OrderedScalar.isUndefined_of_le hhi).2
  -- The cap may be `hi` itself where it is equal to `v`, as one zero is to the other.
  obtain ⟨m, hm, hvm, hmv⟩ : ∃ m, Scalar.min v hi = m ∧ v ≤ m ∧ m ≤ v := by
    obtain ⟨hmin, -⟩ | ⟨hmin, hle⟩ := min_mem hv hh
    · exact ⟨v, hmin, le_self hv, le_self hv⟩
    · exact ⟨hi, hmin, hhi, hle⟩
  rw [hm]
  obtain ⟨hmax, -⟩ | ⟨hmax, hle⟩ := max_mem (OrderedScalar.isUndefined_of_le hvm).2 hl
  · rw [hmax]
    exact OrderedScalar.beq_iff.mpr ⟨hvm, hmv⟩
  · rw [hmax]
    exact OrderedScalar.beq_iff.mpr ⟨OrderedScalar.le_trans hvm hle, hlo⟩

/-- The undefined value is on neither side of any number. -/
theorem not_le_of_undefined {v : α} (hv : isUndefined v = true) (w : α) : ¬ v ≤ w ∧ ¬ w ≤ v := by
  constructor
  · intro hle
    exact Bool.false_ne_true ((OrderedScalar.isUndefined_of_le hle).1.symm.trans hv)
  · intro hle
    exact Bool.false_ne_true ((OrderedScalar.isUndefined_of_le hle).2.symm.trans hv)

/-- **A clamp keeps a defined number between its bounds.** -/
theorem clamp_mem {v lo hi : α} (h : lo ≤ hi) (hv : isUndefined v = false) :
    lo ≤ Scalar.clamp v lo hi ∧ Scalar.clamp v lo hi ≤ hi := by
  obtain ⟨hlo, hhi⟩ := OrderedScalar.isUndefined_of_le h
  unfold Scalar.clamp
  by_cases hbelow : v < lo
  · rw [if_pos hbelow]
    exact ⟨le_self hlo, h⟩
  · rw [if_neg hbelow]
    by_cases habove : hi < v
    · rw [if_pos habove]
      exact ⟨h, le_self hhi⟩
    · rw [if_neg habove]
      exact ⟨OrderedScalar.le_of_not_lt hv hlo hbelow, OrderedScalar.le_of_not_lt hhi hv habove⟩

/-- It only moves a number to a bound, down from above and up from below. -/
theorem clamp_sides {v : α} (lo hi : α) (hv : isUndefined v = false) :
    (Scalar.clamp v lo hi = lo ∨ Scalar.clamp v lo hi ≤ v)
      ∧ (Scalar.clamp v lo hi = hi ∨ v ≤ Scalar.clamp v lo hi) := by
  unfold Scalar.clamp
  by_cases hbelow : v < lo
  · rw [if_pos hbelow]
    exact ⟨.inl rfl, .inr (OrderedScalar.le_of_lt hbelow)⟩
  · rw [if_neg hbelow]
    by_cases habove : hi < v
    · rw [if_pos habove]
      exact ⟨.inr (OrderedScalar.le_of_lt habove), .inl rfl⟩
    · rw [if_neg habove]
      exact ⟨.inr (le_self hv), .inr (le_self hv)⟩

/-- A clamp keeps the order of any two numbers. -/
theorem clamp_mono {v w lo hi : α} (h : lo ≤ hi) (hvw : v ≤ w) :
    Scalar.clamp v lo hi ≤ Scalar.clamp w lo hi := by
  obtain ⟨hv, hw⟩ := OrderedScalar.isUndefined_of_le hvw
  obtain hlo | hle := (clamp_sides lo hi hv).1
  · rw [hlo]
    exact (clamp_mem h hw).1
  · obtain hhi | hge := (clamp_sides lo hi hw).2
    · rw [hhi]
      exact (clamp_mem h hv).2
    · exact OrderedScalar.le_trans hle (OrderedScalar.le_trans hvw hge)

/-- An undefined number it lets through. -/
theorem clamp_undefined {v : α} (lo hi : α) (hv : isUndefined v = true) :
    Scalar.clamp v lo hi = v := by
  have hlow : ¬ v < lo := mt OrderedScalar.le_of_lt (not_le_of_undefined hv lo).1
  have hhigh : ¬ hi < v := mt OrderedScalar.le_of_lt (not_le_of_undefined hv hi).2
  unfold Scalar.clamp
  rw [if_neg hlow, if_neg hhigh]

end Scalar
end GifEdit
