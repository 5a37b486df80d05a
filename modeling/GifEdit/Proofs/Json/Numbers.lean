/-
  GifEdit.Proofs.Json.Numbers
  ───────────────────────────
  **WHERE A NUMBER ENDS, AND WHICH NUMBERS READ BACK.**

  A number has no closing mark, so what follows it decides where it ends.  Behind a number
  the writers put a comma, a bracket, a blank or nothing, and none of these goes on with
  it: what is read of a number alone is read of it in its place (`readNumber_append`).

  A whole number of 64 bits reads back as itself.  Other numbers are read by scaling, which
  may miss the last bit, so that they read back is a property of the number (`ReadsBack`).
-/
import GifEdit.Json.Decode
import GifEdit.Proofs.Fallible
import Mathlib.Data.List.Basic
import Mathlib.Tactic.SplitIfs

namespace GifEdit.Json

/-! ## §1. Where a number ends. -/

/-- Whether a number may end before a text: it does not begin with a character that goes on
with the number. -/
def endsNumber : List Char → Bool
  | [] => true
  | c :: _ => !(c.isDigit || c = '.' || c = 'e' || c = 'E')

/-- A text that is read as a leaf wherever a number may end. -/
def ReadsLeaf (cs : List Char) (v : Json) : Prop :=
  ∀ rest, endsNumber rest = true → readLeaf (cs ++ rest) = .ok (v, rest)

/-- Whatever may stand behind a number begins with nothing that could go on with it. -/
theorem endsNumber_cons {c : Char} {cs : List Char} (h : endsNumber (c :: cs) = true) :
    c.isDigit = false ∧ c ≠ '.' ∧ c ≠ 'e' ∧ c ≠ 'E' := by
  simp only [endsNumber, Bool.not_eq_true', Bool.or_eq_false_iff, decide_eq_false_iff_not] at h
  obtain ⟨⟨⟨hdigit, hpoint⟩, he⟩, hE⟩ := h
  exact ⟨hdigit, hpoint, he, hE⟩

variable {cs rest : List Char}

/-- What ends a number has no digits at its front. -/
theorem takeDigits_of_endsNumber (h : endsNumber rest = true) : takeDigits rest = ([], rest) := by
  cases rest with
  | nil => rfl
  | cons c rest =>
      have hdigit := (endsNumber_cons h).1
      simp [takeDigits, hdigit]

/-- Digits are taken one by one. -/
theorem takeDigits_cons_of_isDigit {c : Char} (h : c.isDigit = true) (cs : List Char) :
    takeDigits (c :: cs) = (c :: (takeDigits cs).1, (takeDigits cs).2) := by
  simp [takeDigits, h]

/-- The digits at the front of a text stay the same before what ends a number. -/
theorem takeDigits_append (hrest : endsNumber rest = true) {ds left : List Char}
    (h : takeDigits cs = (ds, left)) : takeDigits (cs ++ rest) = (ds, left ++ rest) := by
  induction cs generalizing ds with
  | nil =>
      obtain ⟨rfl, rfl⟩ := Prod.mk.inj h
      exact takeDigits_of_endsNumber hrest
  | cons c cs ih =>
      cases hdigit : c.isDigit with
      | true =>
          rw [takeDigits_cons_of_isDigit hdigit] at h
          obtain ⟨rfl, rfl⟩ := Prod.mk.inj h
          rw [List.cons_append, takeDigits_cons_of_isDigit hdigit, ih rfl]
          rfl
      | false =>
          have hnone (more : List Char) : takeDigits (c :: more) = ([], c :: more) := by
            simp [takeDigits, hdigit]
          rw [hnone] at h
          obtain ⟨rfl, rfl⟩ := Prod.mk.inj h
          exact hnone (cs ++ rest)

theorem takeDigits_of_isDigit {ds : List Char} (h : ∀ c ∈ ds, c.isDigit = true) :
    takeDigits ds = (ds, []) := by
  induction ds with
  | nil => rfl
  | cons d ds ih =>
      rw [takeDigits_cons_of_isDigit (h d List.mem_cons_self),
        ih fun c hc => h c (List.mem_cons_of_mem d hc)]

/-! ## §2. Numbers in their place. -/

theorem readPlaces_of_ne {c : Char} (h : c ≠ '.') (cs : List Char) :
    readPlaces (c :: cs) = .ok (none, c :: cs) := by
  unfold readPlaces
  split
  · rename_i heq
    exact absurd (List.cons.inj heq).1 h
  · rfl

theorem readPlaces_of_endsNumber (h : endsNumber rest = true) :
    readPlaces rest = .ok (none, rest) := by
  cases rest with
  | nil => rfl
  | cons c rest => exact readPlaces_of_ne (endsNumber_cons h).2.1 rest

/-- Places are read alike in front of anything that ends a number. -/
theorem readPlaces_append (hrest : endsNumber rest = true) {places : Option (List Char)}
    {left : List Char} (h : readPlaces cs = .ok (places, left)) :
    readPlaces (cs ++ rest) = .ok (places, left ++ rest) := by
  cases cs with
  | nil =>
      obtain ⟨rfl, rfl⟩ := Prod.mk.inj (Except.ok.inj h)
      exact readPlaces_of_endsNumber hrest
  | cons c cs =>
      by_cases hpoint : c = '.'
      · subst hpoint
        obtain ⟨ds, more, hds⟩ : ∃ ds more, takeDigits cs = (ds, more) := ⟨_, _, rfl⟩
        simp only [List.cons_append, readPlaces, takeDigits_append hrest hds, hds] at h ⊢
        cases ds with
        | nil => exact nomatch h
        | cons d ds =>
            obtain ⟨rfl, rfl⟩ := Prod.mk.inj (Except.ok.inj h)
            rfl
      · rw [readPlaces_of_ne hpoint] at h
        obtain ⟨rfl, rfl⟩ := Prod.mk.inj (Except.ok.inj h)
        exact readPlaces_of_ne hpoint (cs ++ rest)

theorem readPower_of_ne {c : Char} (he : c ≠ 'e') (hE : c ≠ 'E') (cs : List Char) :
    readPower (c :: cs) = .ok (none, c :: cs) := by
  simp [readPower, he, hE]

theorem readPower_of_endsNumber (h : endsNumber rest = true) :
    readPower rest = .ok (none, rest) := by
  cases rest with
  | nil => rfl
  | cons c rest =>
      obtain ⟨-, -, he, hE⟩ := endsNumber_cons h
      exact readPower_of_ne he hE rest

/-- A sign is taken off a text that is not empty alike, whatever follows the text. -/
theorem takeSign_append {c : Char} (cs rest : List Char) :
    Decimal.takeSign (c :: cs ++ rest)
      = ((Decimal.takeSign (c :: cs)).1, (Decimal.takeSign (c :: cs)).2 ++ rest) := by
  rw [List.cons_append]
  unfold Decimal.takeSign
  split
  · rename_i heq
    obtain ⟨rfl, rfl⟩ := List.cons.inj heq
    rfl
  · rename_i heq
    obtain ⟨rfl, rfl⟩ := List.cons.inj heq
    rfl
  · rename_i hplus hminus
    split
    · rename_i heq
      exact absurd (congrArg (· ++ rest) heq) (hplus _)
    · rename_i heq
      exact absurd (congrArg (· ++ rest) heq) (hminus _)
    · rfl

/-- A power is read alike in front of anything that ends a number. -/
theorem readPower_append (hrest : endsNumber rest = true) {power : Option Int}
    {left : List Char} (h : readPower cs = .ok (power, left)) :
    readPower (cs ++ rest) = .ok (power, left ++ rest) := by
  cases cs with
  | nil =>
      obtain ⟨rfl, rfl⟩ := Prod.mk.inj (Except.ok.inj h)
      exact readPower_of_endsNumber hrest
  | cons c cs =>
      -- Without the letter there is no power, with or without the end behind it.
      by_cases hmark : c = 'e' ∨ c = 'E'
      · have hmark' : (c = 'e' || c = 'E') = true := by simpa using hmark
        cases cs with
        | nil =>
            simp only [readPower, hmark', if_true] at h
            exact nomatch h
        | cons d cs =>
            obtain ⟨ds, more, hds⟩ :
                ∃ ds more, takeDigits (Decimal.takeSign (d :: cs)).2 = (ds, more) := ⟨_, _, rfl⟩
            have happend := takeDigits_append hrest hds
            simp only [List.cons_append, readPower, hmark', if_true, hds] at h ⊢
            rw [← List.cons_append, takeSign_append, happend]
            cases ds with
            | nil => exact nomatch h
            | cons d ds =>
                obtain ⟨rfl, rfl⟩ := Prod.mk.inj (Except.ok.inj h)
                rfl
      · obtain ⟨he, hE⟩ := not_or.mp hmark
        rw [readPower_of_ne he hE] at h
        obtain ⟨rfl, rfl⟩ := Prod.mk.inj (Except.ok.inj h)
        exact readPower_of_ne he hE (cs ++ rest)

/-- What is read of a number behind the digits before its point. -/
def readFurther (negative : Bool) (whole cs : List Char) : Except Fault (Json × List Char) := do
  let (places, cs) ← readPlaces cs
  let (power, cs) ← readPower cs
  return match places, power with
    | none, none => (wholeLeaf negative whole, cs)
    | _, _ => (numberLeaf negative whole (places.getD []) (power.getD 0), cs)

/-- Digits that a number may begin with: there is one, and no zero goes before others. -/
def BeginsNumber (whole : List Char) : Prop :=
  whole ≠ [] ∧ ∀ c more, whole ≠ '0' :: c :: more

/-- A number that begins as it may is read on from behind its first digits. -/
theorem readNumber_eq {whole more : List Char} (hds : takeDigits cs = (whole, more))
    (hbegins : BeginsNumber whole) (negative : Bool) :
    readNumber negative cs = readFurther negative whole more := by
  unfold readNumber
  rw [hds]
  split
  · rename_i heq
    exact absurd (Prod.mk.inj heq).1 hbegins.1
  · rename_i heq
    exact absurd (Prod.mk.inj heq).1 (hbegins.2 _ _)
  · rename_i heq
    obtain ⟨rfl, rfl⟩ := Prod.mk.inj heq
    rfl

/-- What is read as a number begins as it may. -/
theorem beginsNumber_of_readNumber {whole more : List Char} (hds : takeDigits cs = (whole, more))
    {negative : Bool} {v : Json × List Char} (h : readNumber negative cs = .ok v) :
    BeginsNumber whole := by
  unfold readNumber at h
  rw [hds] at h
  constructor
  · rintro rfl
    exact nomatch h
  · rintro c more rfl
    exact nomatch h

/-- Places and power together are read alike in front of an end. -/
theorem readFurther_append (hrest : endsNumber rest = true) {negative : Bool}
    {whole : List Char} {v : Json} {left : List Char}
    (h : readFurther negative whole cs = .ok (v, left)) :
    readFurther negative whole (cs ++ rest) = .ok (v, left ++ rest) := by
  unfold readFurther at h ⊢
  obtain ⟨⟨places, afterPlaces⟩, hplaces, h⟩ := bind_eq_ok.mp h
  obtain ⟨⟨power, afterPower⟩, hpower, h⟩ := bind_eq_ok.mp h
  refine bind_eq_ok.mpr ⟨(places, afterPlaces ++ rest), readPlaces_append hrest hplaces, ?_⟩
  refine bind_eq_ok.mpr ⟨(power, afterPower ++ rest), readPower_append hrest hpower, ?_⟩
  cases places with
  | none =>
      cases power with
      | none =>
          obtain ⟨rfl, rfl⟩ := Prod.mk.inj (Except.ok.inj h)
          rfl
      | some power =>
          obtain ⟨rfl, rfl⟩ := Prod.mk.inj (Except.ok.inj h)
          rfl
  | some places =>
      obtain ⟨rfl, rfl⟩ := Prod.mk.inj (Except.ok.inj h)
      rfl

/-- **A number is read in its place as it is read alone.** -/
theorem readNumber_append (hrest : endsNumber rest = true) {negative : Bool} {v : Json}
    {left : List Char} (h : readNumber negative cs = .ok (v, left)) :
    readNumber negative (cs ++ rest) = .ok (v, left ++ rest) := by
  obtain ⟨whole, more, hds⟩ : ∃ whole more, takeDigits cs = (whole, more) := ⟨_, _, rfl⟩
  have hbegins := beginsNumber_of_readNumber hds h
  rw [readNumber_eq hds hbegins] at h
  rw [readNumber_eq (takeDigits_append hrest hds) hbegins]
  exact readFurther_append hrest h

/-! ## §3. Whole numbers. -/

theorem digitChar_ne_zero : ∀ n < 10, 0 < n → Nat.digitChar n ≠ '0' := by
  decide

/-- No number but zero is written with a zero in front. -/
theorem head?_digitChars {n : Nat} (h : 0 < n) : (Decimal.digitChars n).head? ≠ some '0' := by
  induction n using Nat.strongRecOn with
  | ind n ih =>
      unfold Decimal.digitChars
      rw [Nat.toDigits_eq_if (by decide)]
      by_cases hn : n < 10
      · rw [if_pos hn]
        simpa using digitChar_ne_zero n hn h
      · rw [if_neg hn, List.head?_append_of_ne_nil _ Nat.toDigits_ne_nil]
        exact ih (n / 10) (by omega) (by omega)

/-- A whole number is written in digits only. -/
theorem isDigit_of_mem_digitChars {n : Nat} {c : Char} (h : c ∈ Decimal.digitChars n) :
    c.isDigit = true :=
  Nat.isDigit_of_mem_toDigits (by decide) (by decide) h

/-- A whole number is written without zeros in front. -/
theorem beginsNumber_digitChars (n : Nat) : BeginsNumber (Decimal.digitChars n) := by
  refine ⟨Nat.toDigits_ne_nil, ?_⟩
  intro c more heq
  by_cases hn : n = 0
  · subst hn
    exact nomatch heq
  · refine head?_digitChars (Nat.pos_of_ne_zero hn) ?_
    rw [heq]
    rfl

/-- The digits of a whole number have its value. -/
theorem digitsValue_digitChars (n : Nat) : Decimal.digitsValue 0 (Decimal.digitChars n) = n := by
  have hvalue := Nat.ofDigitChars_toDigits (b := 10) (n := n) (by decide) (by decide)
  rw [Nat.ofDigitChars_eq_foldl] at hvalue
  unfold Decimal.digitsValue Decimal.digitChars
  simpa only [Nat.mul_comm] using hvalue

/-- The digits of a natural number are read up to their end. -/
theorem readNumber_digitChars (hrest : endsNumber rest = true) (negative : Bool) (n : Nat) :
    readNumber negative (Decimal.digitChars n ++ rest)
      = .ok (wholeLeaf negative (Decimal.digitChars n), rest) := by
  have halone : readNumber negative (Decimal.digitChars n)
      = .ok (wholeLeaf negative (Decimal.digitChars n), []) := by
    rw [readNumber_eq (takeDigits_of_isDigit fun c hc => isDigit_of_mem_digitChars hc)
      (beginsNumber_digitChars n)]
    rfl
  exact readNumber_append hrest halone

/-- What starts with a digit is read as a number. -/
theorem readLeaf_of_isDigit {c : Char} (h : c.isDigit = true) (cs : List Char) :
    readLeaf (c :: cs) = readNumber false (c :: cs) := by
  unfold readLeaf
  split
  case h_1 heq => exact nomatch heq
  case h_7 heq =>
    obtain ⟨rfl, rfl⟩ := List.cons.inj heq
    rw [if_pos h]
  all_goals
    rename_i heq
    obtain ⟨rfl, rfl⟩ := List.cons.inj heq
    exact nomatch h

/-- The value of the digits is the number, if it has 64 bits. -/
theorem wholeLeaf_digitChars {n : Int} (hlow : -9223372036854775808 ≤ n)
    (hhigh : n < 18446744073709551616) :
    wholeLeaf (n < 0) (Decimal.digitChars n.natAbs) = .number (.whole n) := by
  unfold wholeLeaf
  simp only [digitsValue_digitChars, decide_eq_true_eq]
  by_cases hn : n < 0
  · have hin : (0 < n.natAbs && n.natAbs ≤ Nat.pow 2 63) = true := by
      rw [Bool.and_eq_true, decide_eq_true_iff, decide_eq_true_iff]
      show 0 < n.natAbs ∧ n.natAbs ≤ 9223372036854775808
      omega
    have hvalue : -(n.natAbs : Int) = n := by omega
    rw [if_pos hn, if_pos hin, hvalue]
  · have hin : n.natAbs < Nat.pow 2 64 := by
      show n.natAbs < 18446744073709551616
      omega
    have hvalue : (n.natAbs : Int) = n := by omega
    rw [if_neg hn, if_pos hin, hvalue]

/-- **Whole numbers of 64 bits read back.** -/
theorem readsLeaf_whole {n : Int} (hlow : -9223372036854775808 ≤ n)
    (hhigh : n < 18446744073709551616) :
    ReadsLeaf (writeNumeral (.whole n)) (.number (.whole n)) := by
  intro rest hrest
  have hread := readNumber_digitChars hrest (n < 0) n.natAbs
  rw [wholeLeaf_digitChars hlow hhigh] at hread
  rw [writeNumeral]
  by_cases hn : n < 0
  · rw [decide_eq_true hn] at hread
    rw [if_pos hn]
    exact hread
  · obtain ⟨c, ds, hds⟩ := List.exists_cons_of_ne_nil (beginsNumber_digitChars n.natAbs).1
    have hdigit : c.isDigit = true :=
      isDigit_of_mem_digitChars (n := n.natAbs) (hds ▸ List.mem_cons_self)
    rw [decide_eq_false hn, hds] at hread
    rw [if_neg hn, hds, List.cons_append, readLeaf_of_isDigit hdigit]
    exact hread

/-! ## §4. Other numbers. -/

/-- A character that numbers are written with. -/
def isNumberMark (c : Char) : Bool := c.isDigit || c = '.' || c = 'e' || c = '+' || c = '-'

theorem isNumberMark_of_isDigit {c : Char} (h : c.isDigit = true) : isNumberMark c = true := by
  simp [isNumberMark, h]

variable {ds : List Char}

/-- A decimal with its point in place is written with the characters of numbers. -/
theorem layPositional_marks (hds : ∀ c ∈ ds, isNumberMark c = true) (point : Int) :
    ∀ c ∈ Decimal.layPositional Decimal.json ds point, isNumberMark c = true := by
  have hzeros (n : Nat) : ∀ c ∈ List.replicate n '0', isNumberMark c = true := by
    intro c hc
    obtain rfl := List.eq_of_mem_replicate hc
    rfl
  have htake (n : Nat) : ∀ c ∈ ds.take n, isNumberMark c = true :=
    fun c hc => hds c (List.mem_of_mem_take hc)
  have hdrop (n : Nat) : ∀ c ∈ ds.drop n, isNumberMark c = true :=
    fun c hc => hds c (List.mem_of_mem_drop hc)
  unfold Decimal.layPositional
  simp only [Decimal.json, if_true]
  split_ifs
  · simp only [List.forall_mem_append, List.forall_mem_cons]
    exact ⟨rfl, rfl, hzeros _, hds⟩
  · simp only [List.forall_mem_append, List.forall_mem_cons]
    exact ⟨⟨hds, hzeros _⟩, rfl, rfl, by simp⟩
  · simp only [List.forall_mem_append, List.forall_mem_cons]
    exact ⟨htake _, rfl, hdrop _⟩

/-- A decimal with a power of ten is written with the characters of numbers. -/
theorem layScientific_marks (hds : ∀ c ∈ ds, isNumberMark c = true) (e : Int) :
    ∀ c ∈ Decimal.layScientific Decimal.json ds e, isNumberMark c = true := by
  have hexponent : ∀ c ∈ Decimal.digitChars e.natAbs, isNumberMark c = true :=
    fun c hc => isNumberMark_of_isDigit (isDigit_of_mem_digitChars hc)
  unfold Decimal.layScientific
  simp only [Decimal.json, if_true, List.forall_mem_append, List.forall_mem_cons]
  refine ⟨?_, rfl, ?_, hexponent⟩
  · match ds, hds with
    | [], _ => simp [isNumberMark]
    | [d], hds => exact hds
    | d :: d' :: ds, hds =>
      simp only [List.forall_mem_cons] at hds ⊢
      exact ⟨hds.1, rfl, hds.2⟩
  · split <;> simp [isNumberMark]

/-- Any decimal is written with the characters of numbers, whichever layout is chosen. -/
theorem lay_marks (d : Decimal) : ∀ c ∈ Decimal.lay Decimal.json d, isNumberMark c = true := by
  have hds : ∀ c ∈ Decimal.digitChars d.digits, isNumberMark c = true :=
    fun c hc => isNumberMark_of_isDigit (isDigit_of_mem_digitChars hc)
  have hsize : ∀ c ∈ Decimal.laySize Decimal.json d, isNumberMark c = true := by
    unfold Decimal.laySize
    dsimp only [Decimal.json]
    split_ifs
    · exact layPositional_marks hds _
    · exact layScientific_marks hds _
  unfold Decimal.lay
  split
  · exact List.forall_mem_cons.mpr ⟨rfl, hsize⟩
  · exact hsize

variable {left : List Char}

theorem takeDigits_suffix {ds : List Char} (h : takeDigits cs = (ds, left)) : left <:+ cs := by
  obtain rfl := (Prod.mk.inj h).2
  exact List.dropWhile_suffix _

theorem takeSign_suffix (cs : List Char) : (Decimal.takeSign cs).2 <:+ cs := by
  unfold Decimal.takeSign
  split
  · exact List.suffix_cons _ _
  · exact List.suffix_cons _ _
  · exact List.suffix_rfl

theorem readPlaces_suffix {places : Option (List Char)}
    (h : readPlaces cs = .ok (places, left)) : left <:+ cs := by
  cases cs with
  | nil =>
      obtain ⟨-, rfl⟩ := Prod.mk.inj (Except.ok.inj h)
      exact List.suffix_rfl
  | cons c cs =>
      by_cases hpoint : c = '.'
      · subst hpoint
        obtain ⟨ds, more, hds⟩ : ∃ ds more, takeDigits cs = (ds, more) := ⟨_, _, rfl⟩
        simp only [readPlaces, hds] at h
        cases ds with
        | nil => exact nomatch h
        | cons d ds =>
            obtain ⟨-, rfl⟩ := Prod.mk.inj (Except.ok.inj h)
            exact (takeDigits_suffix hds).trans (List.suffix_cons '.' cs)
      · rw [readPlaces_of_ne hpoint] at h
        obtain ⟨-, rfl⟩ := Prod.mk.inj (Except.ok.inj h)
        exact List.suffix_rfl

theorem readPower_suffix {power : Option Int} (h : readPower cs = .ok (power, left)) :
    left <:+ cs := by
  cases cs with
  | nil =>
      obtain ⟨-, rfl⟩ := Prod.mk.inj (Except.ok.inj h)
      exact List.suffix_rfl
  | cons c cs =>
      by_cases hmark : c = 'e' ∨ c = 'E'
      · have hmark' : (c = 'e' || c = 'E') = true := by simpa using hmark
        obtain ⟨ds, more, hds⟩ :
            ∃ ds more, takeDigits (Decimal.takeSign cs).2 = (ds, more) := ⟨_, _, rfl⟩
        simp only [readPower, hmark', if_true, hds] at h
        cases ds with
        | nil => exact nomatch h
        | cons d ds =>
            obtain ⟨-, rfl⟩ := Prod.mk.inj (Except.ok.inj h)
            exact ((takeDigits_suffix hds).trans (takeSign_suffix cs)).trans (List.suffix_cons c cs)
      · obtain ⟨he, hE⟩ := not_or.mp hmark
        rw [readPower_of_ne he hE] at h
        obtain ⟨-, rfl⟩ := Prod.mk.inj (Except.ok.inj h)
        exact List.suffix_rfl

/-- The reader of numbers leaves the rest of its text, as each of its parts does. -/
theorem readNumber_suffix {negative : Bool} {v : Json} (h : readNumber negative cs = .ok (v, left)) :
    left <:+ cs := by
  obtain ⟨whole, more, hds⟩ : ∃ whole more, takeDigits cs = (whole, more) := ⟨_, _, rfl⟩
  rw [readNumber_eq hds (beginsNumber_of_readNumber hds h)] at h
  unfold readFurther at h
  obtain ⟨⟨places, afterPlaces⟩, hplaces, h⟩ := bind_eq_ok.mp h
  obtain ⟨⟨power, afterPower⟩, hpower, h⟩ := bind_eq_ok.mp h
  have hleft : afterPower = left := by
    cases places with
    | none => cases power <;> exact (Prod.mk.inj (Except.ok.inj h)).2
    | some places => exact (Prod.mk.inj (Except.ok.inj h)).2
  rw [← hleft]
  exact ((readPower_suffix hpower).trans (readPlaces_suffix hplaces)).trans (takeDigits_suffix hds)

/-- A number that is read as a leaf is read the same before what ends it. -/
theorem readLeaf_append {c : Char} (hmark : isNumberMark c = true) {v : Json}
    (h : readLeaf (c :: cs) = .ok (v, left)) :
    left <:+ c :: cs ∧
      ∀ rest, endsNumber rest = true → readLeaf (c :: cs ++ rest) = .ok (v, left ++ rest) := by
  by_cases hminus : c = '-'
  · subst hminus
    have hread : readNumber true cs = .ok (v, left) := h
    exact ⟨(readNumber_suffix hread).trans (List.suffix_cons '-' cs),
      fun rest hrest => readNumber_append hrest hread⟩
  by_cases hdigit : c.isDigit = true
  · rw [readLeaf_of_isDigit hdigit] at h
    refine ⟨readNumber_suffix h, ?_⟩
    intro rest hrest
    rw [List.cons_append, readLeaf_of_isDigit hdigit]
    exact readNumber_append hrest h
  -- No other mark starts a value.
  · simp only [isNumberMark, hminus, hdigit, decide_false, Bool.false_or, Bool.or_false,
      Bool.or_eq_true, decide_eq_true_eq] at hmark
    rcases hmark with (rfl | rfl) | rfl <;> exact nomatch h

end GifEdit.Json
