/-
  GifEdit.Proofs.Edit.Colors
  ──────────────────────────
  **WHICH TEXTS NAME COLORS.**

  A color is written `#` and six hexadecimal digits, in either case, and shown with its
  letters in lower case (`ofChars?_eq_some`).  Characters are looked at one by one, so it does
  not matter how many bytes they take.

  A reader that works on the bytes has to look at characters first: it counts the bytes behind
  the mark, then asks whether all characters there are digits, and only then cuts the text at
  offsets and reads each piece as a number, which would allow a sign.  `readBytes` is this
  reader; where it would cut a character in two it has no answer.  It always has one, the same
  one (`readBytes_eq`): digits take one byte each and are no signs.

  Main result: `colors_and_their_texts`.
-/
import GifEdit.Proofs.Edit.Validity
import Mathlib.Data.String.Basic

namespace GifEdit

/-! ## §1. Colors by their texts. -/

namespace Color

/-- A hexadecimal digit, in either case. -/
def IsHexDigit (c : Char) : Prop :=
  ('0' ≤ c ∧ c ≤ '9') ∨ ('a' ≤ c ∧ c ≤ 'f') ∨ ('A' ≤ c ∧ c ≤ 'F')

instance (c : Char) : Decidable (IsHexDigit c) := inferInstanceAs (Decidable (_ ∨ _))

/-- A text that names a color. -/
def IsColorText (cs : List Char) : Prop :=
  ∃ digits, cs = '#' :: digits ∧ digits.length = 6 ∧ ∀ c ∈ digits, IsHexDigit c

theorem isSome_hexDigit? {c : Char} : (hexDigit? c).isSome = true ↔ IsHexDigit c := by
  unfold hexDigit? IsHexDigit
  split_ifs with hdigit hlower hupper <;> simp_all

theorem isSome_channel? {a b : Char} :
    (channel? a b).isSome = true ↔ IsHexDigit a ∧ IsHexDigit b := by
  rw [← isSome_hexDigit?, ← isSome_hexDigit?]
  unfold channel?
  cases hexDigit? a <;> cases hexDigit? b <;> simp

theorem isSome_ofChars? {cs : List Char} : (ofChars? cs).isSome = true ↔ IsColorText cs := by
  unfold ofChars?
  split
  · rename_i r r' g g' b b'
    have hchannels :
        (do return Color.mk (← channel? r r') (← channel? g g') (← channel? b b')).isSome = true
          ↔ (channel? r r').isSome = true ∧ (channel? g g').isSome = true
            ∧ (channel? b b').isSome = true := by
      cases channel? r r' <;> cases channel? g g' <;> cases channel? b b' <;> simp
    rw [hchannels, isSome_channel?, isSome_channel?, isSome_channel?]
    constructor
    · rintro ⟨⟨hr, hr'⟩, ⟨hg, hg'⟩, hb, hb'⟩
      exact ⟨[r, r', g, g', b, b'], rfl, rfl, by simp [hr, hr', hg, hg', hb, hb']⟩
    · rintro ⟨digits, heq, -, hdigits⟩
      obtain rfl := (List.cons.inj heq).2
      simpa [and_assoc] using hdigits
  · rename_i hshape
    refine ⟨nofun, ?_⟩
    rintro ⟨digits, rfl, hlength, -⟩
    match digits, hlength with
    | [r, r', g, g', b, b'], _ => exact absurd rfl (hshape r r' g g' b b')

/-- **A text names a color exactly if it is a mark and six digits.** -/
theorem ofText_isOk_iff {α : Type} {s : String} :
    (∃ c, (ofText s : Except (EditError α) Color) = .ok c) ↔ IsColorText s.toList := by
  rw [← isSome_ofChars?, ofText]
  cases ofChars? s.toList <;> simp

/-! ## §2. Colors as they are shown. -/

theorem IsHexDigit.toNat_le {c : Char} (h : IsHexDigit c) : c.toNat ≤ 102 := by
  have hle {high : Char} (hhigh : high.toNat ≤ 102) (hc : c ≤ high) : c.toNat ≤ 102 :=
    le_trans (show c.toNat ≤ high.toNat from hc) hhigh
  rcases h with h | h | h
  · exact hle (by decide) h.2
  · exact hle (by decide) h.2
  · exact hle (by decide) h.2

/-- A digit is shown in lower case. -/
theorem digitChar_of_hexDigit? {c : Char} {n : Nat} (h : hexDigit? c = some n) :
    Nat.digitChar n = c.toLower := by
  have hall : ∀ m ≤ 102, ∀ n ∈ hexDigit? (Char.ofNat m),
      Nat.digitChar n = (Char.ofNat m).toLower := by decide
  have hdigit : IsHexDigit c := isSome_hexDigit?.mp (by rw [h]; rfl)
  have hc := hall c.toNat hdigit.toNat_le n
  rw [Char.ofNat_toNat] at hc
  exact hc h

theorem channelChars_of_channel? {a b : Char} {n : Nat} (h : channel? a b = some n) :
    channelChars n = [a.toLower, b.toLower] := by
  simp only [channel?, Option.bind_eq_bind, Option.pure_def, Option.bind_eq_some_iff,
    Option.some.injEq] at h
  obtain ⟨high, hhigh, low, hlow, rfl⟩ := h
  have hlt := hexDigit?_lt hlow
  unfold channelChars
  rw [← digitChar_of_hexDigit? hhigh, ← digitChar_of_hexDigit? hlow,
    Nat.mul_add_div (by decide), Nat.div_eq_of_lt hlt, Nat.mul_add_mod, Nat.mod_eq_of_lt hlt,
    Nat.add_zero]

/-- **What a text names is shown as this text**, with its letters in lower case. -/
theorem ofChars?_eq_some {cs : List Char} {c : Color} (h : ofChars? cs = some c) :
    ∃ digits, cs = '#' :: digits ∧ c.digits = digits.map Char.toLower := by
  unfold ofChars? at h
  split at h
  · rename_i r r' g g' b b'
    simp only [Option.bind_eq_bind, Option.pure_def, Option.bind_eq_some_iff,
      Option.some.injEq] at h
    obtain ⟨red, hr, green, hg, blue, hb, rfl⟩ := h
    refine ⟨_, rfl, ?_⟩
    unfold digits
    rw [channelChars_of_channel? hr, channelChars_of_channel? hg, channelChars_of_channel? hb]
    rfl
  · exact nomatch h

theorem ofText_eq_ok {α : Type} {s : String} {c : Color} :
    (ofText s : Except (EditError α) Color) = .ok c ↔ ofChars? s.toList = some c := by
  unfold ofText
  cases ofChars? s.toList <;> simp

/-- A text that names no color is what is complained of. -/
theorem ofText_of_not {α : Type} {s : String} (h : ¬ IsColorText s.toList) :
    (ofText s : Except (EditError α) Color) = .error (.invalidColor s) := by
  rw [← isSome_ofChars?, Option.not_isSome_iff_eq_none] at h
  unfold ofText
  rw [h]

/-! ## §3. Reading by bytes. -/

/-- The piece of a text between two offsets in its bytes, if both lie between characters. -/
def piece? (s : String) (start stop : Nat) : Option String :=
  if String.Pos.Raw.isValid s ⟨start⟩ && String.Pos.Raw.isValid s ⟨stop⟩ && start ≤ stop then
    some (String.Pos.Raw.extract s ⟨start⟩ ⟨stop⟩)
  else none

/-- A number of one byte by its hexadecimal digits, the highest first, perhaps behind a
plus sign. -/
def byte? (cs : List Char) : Option Nat :=
  match cs with
  | [] | ['+'] => none
  | '+' :: cs => digitsByte? 0 cs
  | cs => digitsByte? 0 cs
where
  /-- Appends digits to a number, as long as it fits a byte. -/
  digitsByte? (n : Nat) : List Char → Option Nat
    | [] => some n
    | c :: cs => do
        let d ← hexDigit? c
        if 16 * n + d < 256 then digitsByte? (16 * n + d) cs else none

/-- The channel whose two digits stand at an offset; no answer if a character is cut. -/
def channelAt {α : Type} (s hex : String) (i : Nat) : ExceptT (EditError α) Option Nat :=
  match piece? hex i (i + 2) with
  | none => (none : Option (Except (EditError α) Nat))
  | some piece =>
      match byte? piece.toList with
      | some n => pure n
      | none => throw (.invalidColor s)

/-- The color a text names, read off its bytes. -/
def readBytes {α : Type} (s : String) : ExceptT (EditError α) Option Color :=
  match s.toList with
  | '#' :: cs =>
      let hex := String.ofList cs
      if hex.utf8ByteSize != 6 || !cs.all (IsHexDigit ·) then throw (.invalidColor s)
      else do return ⟨← channelAt s hex 0, ← channelAt s hex 2, ← channelAt s hex 4⟩
  | _ => throw (.invalidColor s)

/-- Digits take one byte each. -/
theorem utf8Len_of_digits {cs : List Char} (h : ∀ c ∈ cs, IsHexDigit c) :
    String.utf8Len cs = cs.length := by
  induction cs with
  | nil => rfl
  | cons c cs ih =>
      rw [List.forall_mem_cons] at h
      have hone : c.utf8Size = 1 :=
        Char.utf8Size_eq_one_iff.mpr (le_trans h.1.toNat_le (by decide) : c.toNat ≤ 127)
      rw [String.utf8Len_cons, ih h.2, hone, List.length_cons]

/-- A text is cut behind any of its characters. -/
theorem isValid_append (a b : List Char) :
    String.Pos.Raw.isValid (String.ofList (a ++ b)) ⟨String.utf8Len a⟩ = true := by
  rw [String.Pos.Raw.isValid_eq_true_iff, String.Pos.Raw.isValid_iff_exists_append]
  refine ⟨String.ofList a, String.ofList b, String.ofList_append, ?_⟩
  rw [String.rawEndPos_ofList]

/-- **Digits are never cut in two.** -/
theorem piece?_digits {a m b : List Char} (ha : ∀ c ∈ a, IsHexDigit c)
    (hm : ∀ c ∈ m, IsHexDigit c) :
    piece? (String.ofList (a ++ m ++ b)) a.length (a.length + m.length)
      = some (String.ofList m) := by
  have hstart := isValid_append a (m ++ b)
  have hstop := isValid_append (a ++ m) b
  have hpiece := String.extract_of_valid a m b
  rw [← List.append_assoc, utf8Len_of_digits ha] at hstart
  rw [String.utf8Len_append, utf8Len_of_digits ha, utf8Len_of_digits hm] at hstop
  rw [utf8Len_of_digits ha, utf8Len_of_digits hm] at hpiece
  unfold piece?
  rw [hstart, hstop, hpiece]
  simp

/-- Two digits are a byte, and no sign is among them. -/
theorem byte?_digits {a b : Char} (ha : IsHexDigit a) : byte? [a, b] = channel? a b := by
  -- The parser of bytes also reads a sign, but no sign is a digit.
  have hsign : a ≠ '+' := by
    rintro rfl
    exact absurd ha (by decide)
  have hdigits : byte? [a, b] = byte?.digitsByte? 0 [a, b] := by
    unfold byte?
    split
    · rename_i heq
      exact nomatch heq
    · rename_i heq
      exact nomatch heq
    · rename_i heq
      exact absurd (List.cons.inj heq).1 hsign
    · rfl
  rw [hdigits]
  unfold channel?
  cases hhigh : hexDigit? a with
  | none => simp [byte?.digitsByte?, hhigh]
  | some high =>
      have hhigh' := hexDigit?_lt hhigh
      have hbyte : high < 256 := by omega
      cases hlow : hexDigit? b with
      | none => simp [byte?.digitsByte?, hhigh, hlow]
      | some low =>
          have hlow' := hexDigit?_lt hlow
          have hboth : 16 * high + low < 256 := by omega
          simp [byte?.digitsByte?, hhigh, hlow, hbyte, hboth]

variable {α : Type}

theorem channelAt_digits {s : String} {a b : List Char} {c d : Char} {n : Nat}
    (ha : ∀ c ∈ a, IsHexDigit c) (hc : IsHexDigit c) (hd : IsHexDigit d)
    (hn : channel? c d = some n) :
    (channelAt s (String.ofList (a ++ c :: d :: b)) a.length : ExceptT (EditError α) Option Nat)
      = pure n := by
  have hpiece := piece?_digits (a := a) (m := [c, d]) (b := b) ha (by simp [hc, hd])
  rw [List.append_assoc] at hpiece
  have hcut : piece? (String.ofList (a ++ c :: d :: b)) a.length (a.length + 2)
      = some (String.ofList [c, d]) := hpiece
  unfold channelAt
  rw [hcut]
  dsimp only
  rw [String.toList_ofList, byte?_digits hc, hn]

/-- **Reading bytes never cuts a character**, and ends as reading characters does. -/
theorem readBytes_eq (s : String) :
    (readBytes s : ExceptT (EditError α) Option Color) = some (ofText s) := by
  unfold readBytes
  split
  · rename_i cs hcs
    dsimp only
    rw [String.utf8ByteSize_ofList]
    have hrefused : (String.utf8Len cs != 6 || !cs.all (IsHexDigit ·)) = true
        ↔ String.utf8Len cs ≠ 6 ∨ ¬ ∀ c ∈ cs, IsHexDigit c := by simp
    split
    · rename_i hcheck
      -- What is refused here is no text of a color: it is too long, too short or no digit.
      have hnot : ¬ IsColorText s.toList := by
        rintro ⟨digits, heq, hlength, hdigits⟩
        obtain rfl := (List.cons.inj (hcs.symm.trans heq)).2
        rw [hrefused, utf8Len_of_digits hdigits] at hcheck
        exact hcheck.elim (absurd hlength) (absurd hdigits)
      rw [ofText_of_not hnot]
      rfl
    · rename_i hcheck
      rw [hrefused, not_or, not_not, not_not] at hcheck
      obtain ⟨hsize, hdigits⟩ := hcheck
      rw [utf8Len_of_digits hdigits] at hsize
      -- Six bytes that are digits are six characters, and every cut is between two of them.
      match cs, hsize with
      | [r, r', g, g', b, b'], _ =>
          simp only [List.forall_mem_cons] at hdigits
          obtain ⟨hr, hr', hg, hg', hb, hb', -⟩ := hdigits
          obtain ⟨red, hred⟩ := Option.isSome_iff_exists.mp (isSome_channel?.mpr ⟨hr, hr'⟩)
          obtain ⟨green, hgreen⟩ := Option.isSome_iff_exists.mp (isSome_channel?.mpr ⟨hg, hg'⟩)
          obtain ⟨blue, hblue⟩ := Option.isSome_iff_exists.mp (isSome_channel?.mpr ⟨hb, hb'⟩)
          have hfirst := channelAt_digits (α := α) (s := s) (a := []) (b := [g, g', b, b'])
            nofun hr hr' hred
          have hsecond := channelAt_digits (α := α) (s := s) (a := [r, r']) (b := [b, b'])
            (by simp [hr, hr']) hg hg' hgreen
          have hthird := channelAt_digits (α := α) (s := s) (a := [r, r', g, g']) (b := [])
            (by simp [hr, hr', hg, hg']) hb hb' hblue
          have hcolor : (ofText s : Except (EditError α) Color) = .ok ⟨red, green, blue⟩ := by
            rw [ofText_eq_ok, hcs]
            simp [ofChars?, hred, hgreen, hblue]
          simp only [List.nil_append, List.cons_append, List.length_cons, List.length_nil,
            Nat.zero_add] at hfirst hsecond hthird
          rw [hfirst, hsecond, hthird, hcolor]
          rfl
  · rename_i hmark
    have hnot : ¬ IsColorText s.toList := fun ⟨digits, heq, _⟩ => hmark digits heq
    rw [ofText_of_not hnot]
    rfl

/-! ## §4. Colors and their texts. -/

/-- **A COLOR IS READ FROM ITS GRAMMAR ALONE.**  A text names a color exactly if it is a mark and
six hexadecimal digits, and otherwise is itself what is complained of; a reader that works on
bytes never cuts a character and ends alike.  The color is shown as the text in lower case, and
filters are given the same digits behind `0x`.  Every color is named by the text it is shown
as. -/
theorem colors_and_their_texts (α : Type) :
    (∀ s : String, (∃ c, (ofText s : Except (EditError α) Color) = .ok c)
        ↔ IsColorText s.toList)
      ∧ (∀ s : String, ¬ IsColorText s.toList →
        (ofText s : Except (EditError α) Color) = .error (.invalidColor s))
      ∧ (∀ s : String, (readBytes s : ExceptT (EditError α) Option Color).run
        = some (ofText s))
      ∧ (∀ (s : String) (c : Color), (ofText s : Except (EditError α) Color) = .ok c →
        c.InBytes ∧ ∃ digits, s.toList = '#' :: digits
          ∧ c.text = String.ofList ('#' :: digits.map Char.toLower)
          ∧ c.filterText = String.ofList ('0' :: 'x' :: digits.map Char.toLower))
      ∧ ∀ c : Color, c.InBytes → (ofText c.text : Except (EditError α) Color) = .ok c := by
  refine ⟨fun s => ofText_isOk_iff, fun s => ofText_of_not, readBytes_eq, ?_, fun c => ofText_text⟩
  intro s c h
  obtain ⟨digits, htext, hdigits⟩ := ofChars?_eq_some (ofText_eq_ok.mp h)
  refine ⟨inBytes_of_ofText h, digits, htext, ?_, ?_⟩
  · unfold text
    rw [hdigits]
  · unfold filterText
    rw [hdigits]

/-- A color in both cases; and two texts whose bytes, or whose characters, only look like one:
four characters in six bytes behind the mark, and a sign where a digit should be. -/
theorem colors_and_their_texts_mixed :
    (ofText "#00fFa9" : Except (EditError Exact) Color) = .ok ⟨0, 255, 169⟩
      ∧ (Color.mk 0 255 169).text = "#00ffa9" ∧ (Color.mk 0 255 169).filterText = "0x00ffa9"
      ∧ (ofText "#00ffa9" : Except (EditError Exact) Color) = .ok ⟨0, 255, 169⟩
      ∧ (readBytes "#a€bc" : ExceptT (EditError Exact) Option Color).run
        = some (.error (.invalidColor "#a€bc"))
      ∧ (readBytes "#+1+2+3" : ExceptT (EditError Exact) Option Color).run
        = some (.error (.invalidColor "#+1+2+3")) := by
  obtain ⟨-, hrefused, hbytes, hshown, hback⟩ := colors_and_their_texts Exact
  have hread : (ofText "#00fFa9" : Except (EditError Exact) Color) = .ok ⟨0, 255, 169⟩ := by
    decide
  obtain ⟨hchannels, digits, htext, hshow, hfilter⟩ := hshown _ _ hread
  obtain rfl : "00fFa9".toList = digits := (List.cons.inj htext).2
  have hfew : ¬ IsColorText "#a€bc".toList := by
    rintro ⟨digits, heq, hlength, -⟩
    obtain rfl : "a€bc".toList = digits := (List.cons.inj heq).2
    exact absurd hlength (by decide)
  have hsign : ¬ IsColorText "#+1+2+3".toList := by
    rintro ⟨digits, heq, -, hdigits⟩
    obtain rfl : "+1+2+3".toList = digits := (List.cons.inj heq).2
    exact absurd (hdigits '+' (by decide)) (by decide)
  refine ⟨hread, hshow, hfilter, ?_, ?_, ?_⟩
  · have hagain := hback _ hchannels
    rwa [hshow] at hagain
  · rw [hbytes, hrefused _ hfew]
  · rw [hbytes, hrefused _ hsign]

end Color
end GifEdit
