/-
  GifEdit.Proofs.Json.Written
  ───────────────────────────
  **WHAT IS READ OF A WRITTEN TREE.**

  Both writers lay a tree out as a spelling of one and the same tree (`reread`): broken
  parts are written as `null`, brackets are always closed, and a number is what its
  characters are read as.  So a decoder that is given the text of a tree sees `reread` of it
  (`decodeDocument_compactText`, `decodeDocument_indentedText`), whichever layout was chosen.

  Whole numbers of 64 bits are read as themselves.  Whether a scalar is, depends on how the
  library prints and reads it; `ReadsBack` says so of one scalar, and nothing else about
  printing is used anywhere.
-/
import GifEdit.Proofs.Json.Texts

namespace GifEdit.Json

/-! ## §1. Trees read again. -/

/-- What a written number is read as. -/
def rereadNumeral (n : Numeral) : Json :=
  match readLeaf (writeNumeral n) with
  | .ok (v, _) => v
  | .error _ => .null

mutual

/-- What a written tree is read as. -/
def reread : Json → Json
  | .null | .unreadable _ | .cut _ | .stopped _ => .null
  | .boolean b => .boolean b
  | .number n => rereadNumeral n
  | .string s => .string s
  | .array items _ => .array (rereadItems items) .closed
  | .object entries _ => .object (rereadEntries entries) .closed

def rereadItems : List Json → List Json
  | [] => []
  | v :: rest => reread v :: rereadItems rest

def rereadEntries : List (Key × Json) → List (Key × Json)
  | [] => []
  | (key, v) :: rest => (.ok (key.toOption.getD ""), reread v) :: rereadEntries rest

end

mutual

/-- The numbers of a tree are written so that they can be read in their place. -/
def Readable : Json → Prop
  | .number n => ReadsLeaf (writeNumeral n) (rereadNumeral n)
  | .array items _ => ReadableItems items
  | .object entries _ => ReadableEntries entries
  | .null | .boolean _ | .string _ | .unreadable _ | .cut _ | .stopped _ => True

def ReadableItems : List Json → Prop
  | [] => True
  | v :: rest => Readable v ∧ ReadableItems rest

def ReadableEntries : List (Key × Json) → Prop
  | [] => True
  | (_, v) :: rest => Readable v ∧ ReadableEntries rest

end

/-! ## §2. Both layouts are spellings. -/

theorem blanks_nil : Blanks [] := nofun

theorem blanks_space : Blanks [' '] := by
  intro c hc
  obtain rfl := List.mem_singleton.mp hc
  rfl

theorem blanks_newLine (level : Nat) : Blanks (newLine level) := by
  intro c hc
  rcases List.mem_cons.mp hc with rfl | hc
  · rfl
  · obtain rfl := List.eq_of_mem_replicate hc
    rfl

theorem readsLeaf_null : ReadsLeaf "null".toList .null := fun _ _ => rfl

theorem readsLeaf_boolean (b : Bool) : ReadsLeaf (compact (.boolean b)) (.boolean b) := by
  cases b <;> exact fun _ _ => rfl

/-- A string is read as it was written, however it is escaped. -/
theorem readsLeaf_string (s : String) : ReadsLeaf (writeString s) (.string s) :=
  fun rest _ => readLeaf_writeString s rest

mutual

/-- **The compact layout spells what is read of it.** -/
theorem compact_spells (v : Json) (h : v.Readable) : Spells v.compact v.reread := by
  match v, h with
  | .null, _ => exact .leaf readsLeaf_null
  | .unreadable _, _ => exact .leaf readsLeaf_null
  | .cut _, _ => exact .leaf readsLeaf_null
  | .stopped _, _ => exact .leaf readsLeaf_null
  | .boolean b, _ => exact .leaf (readsLeaf_boolean b)
  | .number n, h => exact .leaf h
  | .string s, _ => exact .leaf (readsLeaf_string s)
  | .array [] _, _ => exact .noItems blanks_nil
  | .array (v :: rest) _, h =>
      exact @Spells.array [] _ _ blanks_nil
        (compact_spellsItems (compact_spells v h.1) rest h.2)
  | .object [] _, _ => exact .noEntries blanks_nil
  | .object ((key, v) :: rest) _, h =>
      exact @Spells.object [] _ _ blanks_nil
        (compact_spellsEntries (key.toOption.getD "") (compact_spells v h.1) rest h.2)

/-- What stands behind the first item of an array spells the other items. -/
theorem compact_spellsItems {cs : List Char} {v : Json} (hv : Spells cs v) (rest : List Json)
    (h : ReadableItems rest) :
    SpellsItems (cs ++ (compactItems rest ++ [']'])) (v :: rereadItems rest) := by
  match rest, h with
  | [], _ => exact .last hv blanks_nil
  | w :: more, h =>
      have hcons := SpellsItems.cons hv blanks_nil blanks_nil
        (compact_spellsItems (compact_spells w h.1) more h.2)
      simpa only [compactItems, rereadItems, List.append_assoc, List.cons_append,
        List.nil_append] using hcons

/-- What stands behind the first entry of an object spells the other entries. -/
theorem compact_spellsEntries (key : String) {cs : List Char} {v : Json} (hv : Spells cs v)
    (rest : List (Key × Json)) (h : ReadableEntries rest) :
    SpellsEntries (writeString key ++ ':' :: (cs ++ (compactEntries rest ++ ['\x7d'])))
      ((.ok key, v) :: rereadEntries rest) := by
  match rest, h with
  | [], _ => exact .last key blanks_nil blanks_nil hv blanks_nil
  | (key', w) :: more, h =>
      have hcons := SpellsEntries.cons key blanks_nil blanks_nil hv blanks_nil blanks_nil
        (compact_spellsEntries (key'.toOption.getD "") (compact_spells w h.1) more h.2)
      simpa only [compactEntries, writeKey, rereadEntries, List.append_assoc, List.cons_append,
        List.nil_append] using hcons

end

mutual

/-- **The indented layout spells what is read of it.** -/
theorem indented_spells (level : Nat) (v : Json) (h : v.Readable) :
    Spells (indented level v) v.reread := by
  match v, h with
  | .null, _ => exact .leaf readsLeaf_null
  | .unreadable _, _ => exact .leaf readsLeaf_null
  | .cut _, _ => exact .leaf readsLeaf_null
  | .stopped _, _ => exact .leaf readsLeaf_null
  | .boolean b, _ => exact .leaf (readsLeaf_boolean b)
  | .number n, h => exact .leaf h
  | .string s, _ => exact .leaf (readsLeaf_string s)
  | .array [] _, _ => exact .noItems blanks_nil
  | .array (v :: rest) _, h =>
      have hitems := indented_spellsItems level (indented_spells (level + 1) v h.1) rest h.2
      have harray := Spells.array (blanks_newLine (level + 1)) hitems
      simpa only [indented, reread, rereadItems, List.append_assoc] using harray
  | .object [] _, _ => exact .noEntries blanks_nil
  | .object ((key, v) :: rest) _, h =>
      have hentries := indented_spellsEntries level (key.toOption.getD "")
        (indented_spells (level + 1) v h.1) rest h.2
      have hobject := Spells.object (blanks_newLine (level + 1)) hentries
      simpa only [indented, writeKey, reread, rereadEntries, List.append_assoc,
        List.cons_append] using hobject

/-- The same for items on lines of their own, at any depth. -/
theorem indented_spellsItems (level : Nat) {cs : List Char} {v : Json} (hv : Spells cs v)
    (rest : List Json) (h : ReadableItems rest) :
    SpellsItems (cs ++ (indentedItems (level + 1) rest ++ (newLine level ++ [']'])))
      (v :: rereadItems rest) := by
  match rest, h with
  | [], _ => exact .last hv (blanks_newLine level)
  | w :: more, h =>
      have hcons := SpellsItems.cons hv blanks_nil (blanks_newLine (level + 1))
        (indented_spellsItems level (indented_spells (level + 1) w h.1) more h.2)
      simpa only [indentedItems, rereadItems, List.append_assoc, List.cons_append,
        List.nil_append] using hcons

/-- The same for entries on lines of their own, at any depth. -/
theorem indented_spellsEntries (level : Nat) (key : String) {cs : List Char} {v : Json}
    (hv : Spells cs v) (rest : List (Key × Json)) (h : ReadableEntries rest) :
    SpellsEntries (writeString key ++ ':' :: ' ' :: (cs
        ++ (indentedEntries (level + 1) rest ++ (newLine level ++ ['\x7d']))))
      ((.ok key, v) :: rereadEntries rest) := by
  match rest, h with
  | [], _ => exact .last key blanks_nil blanks_space hv (blanks_newLine level)
  | (key', w) :: more, h =>
      have hcons := SpellsEntries.cons key blanks_nil blanks_space hv blanks_nil
        (blanks_newLine (level + 1)) (indented_spellsEntries level (key'.toOption.getD "")
          (indented_spells (level + 1) w h.1) more h.2)
      simpa only [indentedEntries, writeKey, rereadEntries, List.append_assoc, List.cons_append,
        List.nil_append] using hcons

end

/-! ## §3. Texts of trees. -/

/-- A value of the wrong kind is not taken. -/
theorem mismatch_ne_ok {β : Type} {expected : String} {v : Json} {b : β} :
    mismatch expected v ≠ .ok b := by
  intro h
  unfold mismatch at h
  split at h <;> exact nomatch h

/-- A text is decoded if it holds one tree, and nothing else, that is. -/
theorem decodeDocument_eq_ok {β : Type} {decode : Decoder β} {s : String} {b : β} :
    decodeDocument decode s = .ok b ↔ ∃ v, readText s = (v, true) ∧ decode v = .ok b := by
  obtain ⟨v, ends, hread⟩ : ∃ v ends, readText s = (v, ends) := ⟨_, _, rfl⟩
  unfold decodeDocument
  simp only [hread, bind_eq_ok, Prod.mk.injEq]
  cases ends <;> simp

/-- The tree of a text that holds nothing else is what is decoded. -/
theorem decodeDocument_of_readText {β : Type} (decode : Decoder β) {s : String} {v : Json}
    (h : readText s = (v, true)) : decodeDocument decode s = decode v := by
  unfold decodeDocument
  rw [h]
  cases hdecode : decode v <;> simp [hdecode, bind, Except.bind]

/-- **Of a compact text a decoder sees the tree read again.** -/
theorem decodeDocument_compactText {β : Type} (decode : Decoder β) {v : Json} (h : v.Readable) :
    decodeDocument decode v.compactText = decode v.reread :=
  decodeDocument_of_readText decode (readText_of_spells (compact_spells v h))

/-- **Of an indented text a decoder sees the same tree.** -/
theorem decodeDocument_indentedText {β : Type} (decode : Decoder β) {v : Json} (h : v.Readable) :
    decodeDocument decode v.indentedText = decode v.reread :=
  decodeDocument_of_readText decode (readText_of_spells (indented_spells 0 v h))

/-! ## §4. Parts that are read as themselves. -/

theorem rereadEntries_map (fields : List (String × Json)) :
    rereadEntries (fields.map fun f => (.ok f.1, f.2))
      = fields.map fun f => (.ok f.1, f.2.reread) := by
  induction fields with
  | nil => rfl
  | cons f fields ih =>
      rw [List.map_cons, rereadEntries, ih]
      rfl

theorem readableEntries_map (fields : List (String × Json)) :
    ReadableEntries (fields.map fun f => (.ok f.1, f.2)) ↔ ∀ f ∈ fields, f.2.Readable := by
  induction fields with
  | nil => simp [ReadableEntries]
  | cons f fields ih => simp [ReadableEntries, ih]

@[simp]
theorem reread_record (fields : List (String × Json)) :
    (record fields).reread = record (fields.map fun f => (f.1, f.2.reread)) := by
  unfold record
  rw [reread, rereadEntries_map, List.map_map]
  rfl

@[simp]
theorem readable_record (fields : List (String × Json)) :
    (record fields).Readable ↔ ∀ f ∈ fields, f.2.Readable :=
  readableEntries_map fields

@[simp]
theorem reread_null : Json.null.reread = .null := by
  rw [reread]

@[simp]
theorem readable_null : Json.null.Readable := by
  rw [Readable]
  trivial

@[simp]
theorem reread_string (s : String) : (Json.string s).reread = .string s := by
  rw [reread]

@[simp]
theorem readable_string (s : String) : (Json.string s).Readable := by
  rw [Readable]
  trivial

@[simp]
theorem reread_boolean (b : Bool) : (Json.boolean b).reread = .boolean b := by
  rw [reread]

@[simp]
theorem readable_boolean (b : Bool) : (Json.boolean b).Readable := by
  rw [Readable]
  trivial

/-- A number that is read off a text in every place is what the text is read as. -/
theorem rereadNumeral_of_readsLeaf {n : Numeral} {v : Json} (h : ReadsLeaf (writeNumeral n) v) :
    rereadNumeral n = v := by
  have hread := h [] rfl
  rw [List.append_nil] at hread
  unfold rereadNumeral
  rw [hread]

/-- A numeral can be read if its text is read as anything. -/
theorem readable_of_readsLeaf {n : Numeral} {v : Json} (h : ReadsLeaf (writeNumeral n) v) :
    (Json.number n).Readable := by
  rw [Readable, rereadNumeral_of_readsLeaf h]
  exact h

/-- A whole number of 32 bits, with or without sign. -/
theorem readsLeaf_word {n : Int} (hlow : -2147483648 ≤ n) (hhigh : n ≤ Scalar.wordMax) :
    ReadsLeaf (writeNumeral (.whole n)) (.number (.whole n)) := by
  have hword : (Scalar.wordMax : Int) = 4294967295 := rfl
  exact readsLeaf_whole (by omega) (by omega)

/-! ## §5. Scalars that read back. -/

section

variable {α : Type} [Scalar α] [Legible α]

/-- The number is read back as itself from a text that holds nothing else. -/
def ReadsBack (x : α) : Prop :=
  decodeDocument decodeScalar (scalar x).compactText = .ok x

instance [DecidableEq α] (x : α) : Decidable (ReadsBack x) :=
  inferInstanceAs (Decidable (decodeDocument decodeScalar (scalar x).compactText = .ok x))

omit [Legible α] in
/-- No scalar is decoded from the null that stands for a number without a text. -/
theorem decodeScalar_null {x : α} : decodeScalar .null ≠ .ok x := by
  show mismatch "f64" .null ≠ .ok x
  exact mismatch_ne_ok

omit [Legible α] in
/-- Scalars are decoded from numbers and from nothing else. -/
theorem decodeScalar_eq_ok {v : Json} {x : α} :
    decodeScalar v = .ok x ↔ ∃ n, v = .number n ∧ n.toScalar = x := by
  constructor
  · intro h
    unfold decodeScalar at h
    split at h
    · exact ⟨_, rfl, Except.ok.inj h⟩
    · exact absurd h mismatch_ne_ok
  · rintro ⟨n, rfl, rfl⟩
    rfl

theorem isBlank_of_mark {c : Char} (h : isNumberMark c = true) : isBlank c = false := by
  rw [Bool.eq_false_iff]
  intro hblank
  rcases isBlank_iff.mp hblank with rfl | rfl | rfl | rfl <;> exact absurd h (by decide)

/-- Number marks that are read to their end as a text hold one leaf. -/
theorem readsLeaf_of_readText {cs : List Char} (hcs : ∀ c ∈ cs, isNumberMark c = true)
    {v : Json} (h : readText (String.ofList cs) = (v, true)) : ReadsLeaf cs v := by
  unfold readText at h
  rw [String.toList_ofList] at h
  cases cs with
  | nil => exact nomatch h
  | cons c more =>
      have hmark := hcs c List.mem_cons_self
      have hskip := skipBlanks_cons (isBlank_of_mark hmark) more
      have hbracket : c ≠ '[' := by
        rintro rfl
        exact nomatch hmark
      have hbrace : c ≠ '\x7b' := by
        rintro rfl
        exact nomatch hmark
      have hvalue (fuel : Nat) := @readValue_of_start fuel _ _ _ hskip hbracket hbrace
      cases hleaf : readLeaf (c :: more) with
      | error fault =>
          simp only [hleaf] at hvalue
          simp only [hvalue] at h
          exact nomatch h
      | ok found =>
          obtain ⟨w, left⟩ := found
          obtain ⟨hsuffix, happend⟩ := readLeaf_append hmark hleaf
          simp only [hleaf] at hvalue
          simp only [hvalue] at h
          obtain ⟨rfl, hempty⟩ := Prod.mk.inj h
          -- What is left holds no blank, so it is skipped only if there is nothing of it.
          have hleft : left = [] := by
            cases left with
            | nil => rfl
            | cons d left =>
                have hd := hcs d (hsuffix.subset List.mem_cons_self)
                rw [skipBlanks_cons (isBlank_of_mark hd)] at hempty
                exact nomatch hempty
          rw [hleft] at happend
          exact happend

omit [Legible α] in
/-- `null` is no number. -/
theorem not_readsBack_null {x : α} : decodeDocument decodeScalar Json.null.compactText ≠ .ok x := by
  rw [decodeDocument_compactText decodeScalar readable_null, reread_null]
  exact decodeScalar_null

/-- **What reads back is read so in every place.** -/
theorem ReadsBack.readsLeaf {x : α} (h : ReadsBack x) :
    ∃ d n, Legible.figure x = .finite d ∧ n.toScalar = x
      ∧ ReadsLeaf (writeNumeral (.decimal d)) (.number n) := by
  unfold ReadsBack scalar at h
  cases hfigure : Legible.figure x with
  | undefined =>
      rw [hfigure] at h
      exact absurd h not_readsBack_null
  | infinite negative =>
      rw [hfigure] at h
      exact absurd h not_readsBack_null
  | finite d =>
      rw [hfigure] at h
      obtain ⟨v, hread, hdecode⟩ := decodeDocument_eq_ok.mp h
      obtain ⟨n, rfl, hn⟩ := decodeScalar_eq_ok.mp hdecode
      exact ⟨d, n, rfl, hn, readsLeaf_of_readText (lay_marks d) hread⟩

theorem ReadsBack.readable {x : α} (h : ReadsBack x) : (scalar x).Readable := by
  obtain ⟨d, n, hfigure, -, hleaf⟩ := h.readsLeaf
  unfold scalar
  rw [hfigure]
  exact readable_of_readsLeaf hleaf

/-- What is decoded from the text of a scalar that reads back is this scalar. -/
theorem ReadsBack.decode {x : α} (h : ReadsBack x) : decodeScalar (scalar x).reread = .ok x := by
  rw [← decodeDocument_compactText decodeScalar h.readable]
  exact h

end

/-! ## §6. One line. -/

/-- No number breaks the line. -/
theorem newline_notMem_writeNumeral (n : Numeral) : '\n' ∉ writeNumeral n := by
  have hmark {cs : List Char} (hcs : ∀ c ∈ cs, isNumberMark c = true) : '\n' ∉ cs :=
    fun hmem => nomatch hcs '\n' hmem
  cases n with
  | whole n =>
      have hdigits : ∀ c ∈ Decimal.digitChars n.natAbs, isNumberMark c = true :=
        fun c hc => isNumberMark_of_isDigit (isDigit_of_mem_digitChars hc)
      rw [writeNumeral]
      split
      · exact hmark (List.forall_mem_cons.mpr ⟨rfl, hdigits⟩)
      · exact hmark hdigits
  | decimal d => exact hmark (lay_marks d)

mutual

/-- **A compact text is one line.** -/
theorem newline_notMem_compact (v : Json) : '\n' ∉ v.compact := by
  have hnull : '\n' ∉ "null".toList := by decide
  match v with
  | .null => exact hnull
  | .unreadable _ => exact hnull
  | .cut _ => exact hnull
  | .stopped _ => exact hnull
  | .boolean b => cases b <;> decide
  | .number n => exact newline_notMem_writeNumeral n
  | .string s => exact newline_notMem_writeString s
  | .array [] _ => simp [compact]
  | .array (v :: rest) _ =>
      simp [compact, newline_notMem_compact v, newline_notMem_compactItems rest]
  | .object [] _ => simp [compact]
  | .object ((key, v) :: rest) _ =>
      simp [compact, writeKey, newline_notMem_writeString, newline_notMem_compact v,
        newline_notMem_compactEntries rest]

theorem newline_notMem_compactItems (items : List Json) : '\n' ∉ compactItems items := by
  match items with
  | [] => exact List.not_mem_nil
  | v :: rest =>
      simp [compactItems, newline_notMem_compact v, newline_notMem_compactItems rest]

/-- No entry of an object breaks the line, as its strings are escaped. -/
theorem newline_notMem_compactEntries (entries : List (Key × Json)) :
    '\n' ∉ compactEntries entries := by
  match entries with
  | [] => exact List.not_mem_nil
  | (key, v) :: rest =>
      simp [compactEntries, writeKey, newline_notMem_writeString, newline_notMem_compact v,
        newline_notMem_compactEntries rest]

end

end GifEdit.Json
