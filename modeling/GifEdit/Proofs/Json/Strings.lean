/-
  GifEdit.Proofs.Json.Strings
  ───────────────────────────
  **A STRING IS READ AS IT WAS WRITTEN.**

  The writer puts a backslash before what would end or break a string, and the reader
  undoes that character by character (`readString_writeChar`), so no character is lost,
  whatever the text, and the string ends where its closing quote was written.
-/
import GifEdit.Json.Reader
import GifEdit.Json.Writer
import Mathlib.Data.List.Basic

namespace GifEdit.Json

/-! ## §1. Single characters. -/

/-- An escape of one letter. -/
theorem readString_escape {c e : Char} (he : escaped? c = some e) (hu : c ≠ 'u')
    (cs : List Char) : readString ('\\' :: c :: cs) = (readString cs).cons e := by
  rw [readString]
  · rw [he]
  · intro h
    exact hu h

/-- A character that stands for itself. -/
theorem readString_plain {c : Char} (hquote : c ≠ '"') (hslash : c ≠ '\\')
    (hcontrol : ¬ c.toNat < 0x20) (cs : List Char) :
    readString (c :: cs) = (readString cs).cons c := by
  rw [readString]
  · rw [if_neg hcontrol]
  all_goals grind

theorem hexValue?_control :
    ∀ n < 0x20, hexValue? '0' '0' (if n < 0x10 then '0' else '1') (Nat.digitChar (n % 16))
      = some n := by
  decide

/-- A control character by its number. -/
theorem readString_control {n : Nat} (hn : n < 0x20) (cs : List Char) :
    readString ('\\' :: 'u' :: '0' :: '0' :: (if n < 0x10 then '0' else '1')
      :: Nat.digitChar (n % 16) :: cs) = (readString cs).cons (Char.ofNat n) := by
  have hhex : readHex ('0' :: '0' :: (if n < 0x10 then '0' else '1')
      :: Nat.digitChar (n % 16) :: cs) = .ok n := by
    simp only [readHex, hexValue?_control n hn]
  -- Controls lie far below the halves of surrogate pairs.
  have hlow : isLowSurrogate n = false := by
    simp only [isLowSurrogate, Bool.and_eq_false_iff, decide_eq_false_iff_not]
    omega
  have hhigh : isHighSurrogate n = false := by
    simp only [isHighSurrogate, Bool.and_eq_false_iff, decide_eq_false_iff_not]
    omega
  rw [readString, hhex]
  simp only [hlow, hhigh, List.drop_succ_cons, List.drop_zero]
  rfl

/-- How a character is written: by an escape of one letter, by its number, or as it is. -/
theorem writeChar_cases (c : Char) :
    (∃ e, writeChar c = ['\\', e] ∧ escaped? e = some c)
      ∨ (c.toNat < 0x20 ∧ writeChar c = ['\\', 'u', '0', '0',
          if c.toNat < 0x10 then '0' else '1', Nat.digitChar (c.toNat % 16)])
      ∨ (c ≠ '"' ∧ c ≠ '\\' ∧ ¬ c.toNat < 0x20 ∧ writeChar c = [c]) := by
  by_cases hquote : c = '"'
  · subst hquote
    exact .inl ⟨'"', rfl, rfl⟩
  by_cases hslash : c = '\\'
  · subst hslash
    exact .inl ⟨'\\', rfl, rfl⟩
  by_cases hline : c = '\n'
  · subst hline
    exact .inl ⟨'n', rfl, rfl⟩
  by_cases hreturn : c = '\r'
  · subst hreturn
    exact .inl ⟨'r', rfl, rfl⟩
  by_cases htab : c = '\t'
  · subst htab
    exact .inl ⟨'t', rfl, rfl⟩
  by_cases hback : c = '\x08'
  · subst hback
    exact .inl ⟨'b', rfl, rfl⟩
  by_cases hfeed : c = '\x0c'
  · subst hfeed
    exact .inl ⟨'f', rfl, rfl⟩
  -- What has no letter of its own goes by its number, if it is a control character at all.
  have hwrite : writeChar c = if c.toNat < 0x20 then ['\\', 'u', '0', '0',
      if c.toNat < 0x10 then '0' else '1', Nat.digitChar (c.toNat % 16)] else [c] := by
    simp only [writeChar, hquote, hslash, hline, hreturn, htab, hback, hfeed, if_false]
  by_cases hcontrol : c.toNat < 0x20
  · rw [if_pos hcontrol] at hwrite
    exact .inr (.inl ⟨hcontrol, hwrite⟩)
  · rw [if_neg hcontrol] at hwrite
    exact .inr (.inr ⟨hquote, hslash, hcontrol, hwrite⟩)

/-- **A written character is read back**, whatever follows it. -/
theorem readString_writeChar (c : Char) (cs : List Char) :
    readString (writeChar c ++ cs) = (readString cs).cons c := by
  obtain ⟨e, hwrite, he⟩ | ⟨hcontrol, hwrite⟩ | ⟨hquote, hslash, hcontrol, hwrite⟩ :=
    writeChar_cases c
  · rw [hwrite]
    refine readString_escape he ?_ cs
    rintro rfl
    exact nomatch he
  · rw [hwrite]
    have h := readString_control hcontrol cs
    rw [Char.ofNat_toNat] at h
    exact h
  · rw [hwrite]
    exact readString_plain hquote hslash hcontrol cs

theorem digitChar_ne_newline : ∀ n < 16, '\n' ≠ Nat.digitChar n := by
  decide

/-- No written character breaks a line. -/
theorem newline_notMem_writeChar (c : Char) : '\n' ∉ writeChar c := by
  obtain ⟨e, hwrite, he⟩ | ⟨-, hwrite⟩ | ⟨-, -, hcontrol, hwrite⟩ := writeChar_cases c
  · have hne : '\n' ≠ e := by
      rintro rfl
      exact nomatch he
    simp [hwrite, hne]
  · have hdigit := digitChar_ne_newline (c.toNat % 16) (Nat.mod_lt _ (by decide))
    have hhalf : '\n' ≠ if c.toNat < 0x10 then '0' else '1' := by split <;> decide
    simp [hwrite, hdigit, hhalf]
  · have hne : '\n' ≠ c := by
      rintro rfl
      exact hcontrol (by decide)
    simp [hwrite, hne]

/-! ## §2. Whole strings. -/

/-- **A written string is read back** up to its closing quote. -/
theorem readString_written (s rest : List Char) :
    readString (s.flatMap writeChar ++ '"' :: rest) = .text s rest := by
  induction s with
  | nil =>
      show readString ('"' :: rest) = .text [] rest
      rw [readString]
  | cons c s ih =>
      rw [List.flatMap_cons, List.append_assoc, readString_writeChar, ih]
      rfl

theorem writeString_append (s : String) (rest : List Char) :
    writeString s ++ rest = '"' :: (s.toList.flatMap writeChar ++ '"' :: rest) := by
  unfold writeString
  rw [List.cons_append, List.append_assoc]
  rfl

/-- As a value. -/
theorem readLeaf_writeString (s : String) (rest : List Char) :
    readLeaf (writeString s ++ rest) = .ok (.string s, rest) := by
  rw [writeString_append]
  unfold readLeaf
  simp only [readString_written, String.ofList_toList]

/-- No written string breaks a line. -/
theorem newline_notMem_writeString (s : String) : '\n' ∉ writeString s := by
  unfold writeString
  simp [newline_notMem_writeChar]

end GifEdit.Json
