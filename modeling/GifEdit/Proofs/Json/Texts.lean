/-
  GifEdit.Proofs.Json.Texts
  ─────────────────────────
  **WHAT SPELLS A VALUE IS READ AS IT.**

  `Spells` says which texts hold a value: the grammar of JSON with blanks wherever it has
  room for them, and with leaves that are read as such.  It knows nothing of fuel or of what
  follows.  The reader does: it reads a value off the front of a longer text, one level of
  brackets a unit of fuel.

      one production   — `readValue_of_start`, `readItems_last`, `readEntries_cons`, ...
      a whole value    — `readValue_of_spells`, by induction on the spelling
      a whole text     — `readText_of_spells`

  The layouts of the writers are spellings, so they need not be looked at again here.
-/
import GifEdit.Proofs.Json.Strings
import GifEdit.Proofs.Json.Numbers

namespace GifEdit.Json

/-! ## §1. Blanks. -/

/-- The four blanks of the format. -/
theorem isBlank_iff {c : Char} : isBlank c = true ↔ c = ' ' ∨ c = '\n' ∨ c = '\t' ∨ c = '\r' := by
  simp only [isBlank, Bool.or_eq_true, decide_eq_true_eq, or_assoc]

/-- A text of nothing but blanks. -/
def Blanks (gap : List Char) : Prop := ∀ c ∈ gap, isBlank c = true

/-- Blanks in front are skipped together. -/
theorem skipBlanks_append {gap : List Char} (h : Blanks gap) (cs : List Char) :
    skipBlanks (gap ++ cs) = skipBlanks cs :=
  List.dropWhile_append_of_pos h

theorem skipBlanks_cons {c : Char} (h : isBlank c = false) (cs : List Char) :
    skipBlanks (c :: cs) = c :: cs := by
  unfold skipBlanks
  rw [List.dropWhile_cons, h]
  rfl

/-- A number ends before blanks as it does behind them. -/
theorem endsNumber_append {gap cs : List Char} (h : Blanks gap) (hcs : endsNumber cs = true) :
    endsNumber (gap ++ cs) = true := by
  cases gap with
  | nil => exact hcs
  | cons c gap =>
      rcases isBlank_iff.mp (h c List.mem_cons_self) with rfl | rfl | rfl | rfl <;> rfl

/-! ## §2. Spellings. -/

mutual

/-- The texts that hold a value. -/
inductive Spells : List Char → Json → Prop
  | leaf {cs v} (h : ReadsLeaf cs v) : Spells cs v
  | noItems {gap} (hgap : Blanks gap) : Spells ('[' :: (gap ++ [']'])) (.array [] .closed)
  | array {gap cs items} (hgap : Blanks gap) (h : SpellsItems cs items) :
      Spells ('[' :: (gap ++ cs)) (.array items .closed)
  | noEntries {gap} (hgap : Blanks gap) :
      Spells ('\x7b' :: (gap ++ ['\x7d'])) (.object [] .closed)
  | object {gap cs entries} (hgap : Blanks gap) (h : SpellsEntries cs entries) :
      Spells ('\x7b' :: (gap ++ cs)) (.object entries .closed)

/-- The texts that hold items, with the bracket that closes them. -/
inductive SpellsItems : List Char → List Json → Prop
  | last {cs v gap} (h : Spells cs v) (hgap : Blanks gap) :
      SpellsItems (cs ++ (gap ++ [']'])) [v]
  | cons {cs v gap gap' more items} (h : Spells cs v) (hgap : Blanks gap) (hgap' : Blanks gap')
      (hmore : SpellsItems more items) :
      SpellsItems (cs ++ (gap ++ ',' :: (gap' ++ more))) (v :: items)

/-- The texts that hold entries, with the bracket that closes them. -/
inductive SpellsEntries : List Char → List (Key × Json) → Prop
  | last (key) {before after cs v gap} (hbefore : Blanks before) (hafter : Blanks after)
      (h : Spells cs v) (hgap : Blanks gap) :
      SpellsEntries (writeString key ++ (before ++ ':' :: (after ++ (cs ++ (gap ++ ['\x7d'])))))
        [(.ok key, v)]
  | cons (key) {before after cs v gap gap' more entries} (hbefore : Blanks before)
      (hafter : Blanks after) (h : Spells cs v) (hgap : Blanks gap) (hgap' : Blanks gap')
      (hmore : SpellsEntries more entries) :
      SpellsEntries
        (writeString key ++ (before ++ ':' :: (after ++ (cs ++ (gap ++ ',' :: (gap' ++ more))))))
        ((.ok key, v) :: entries)

end

/-! ## §3. How spellings start. -/

/-- What no leaf starts with. -/
theorem readLeaf_start {c : Char} {cs : List Char} {found : Json × List Char}
    (h : readLeaf (c :: cs) = .ok found) :
    isBlank c = false ∧ c ≠ '[' ∧ c ≠ '\x7b' ∧ c ≠ ']' := by
  refine ⟨?_, ?_, ?_, ?_⟩
  · rw [Bool.eq_false_iff]
    intro hblank
    rcases isBlank_iff.mp hblank with rfl | rfl | rfl | rfl <;> exact nomatch h
  all_goals
    rintro rfl
    exact nomatch h

/-- A value without parts begins with neither a blank nor a bracket. -/
theorem ReadsLeaf.start {cs : List Char} {v : Json} (h : ReadsLeaf cs v) :
    ∃ c more, cs = c :: more ∧ isBlank c = false ∧ c ≠ '[' ∧ c ≠ '\x7b' ∧ c ≠ ']' := by
  have hread := h [] rfl
  rw [List.append_nil] at hread
  cases cs with
  | nil => exact nomatch hread
  | cons c more => exact ⟨c, more, rfl, readLeaf_start hread⟩

/-- A value starts at once, and with no closing bracket. -/
theorem Spells.start {cs : List Char} {v : Json} (h : Spells cs v) :
    ∃ c more, cs = c :: more ∧ isBlank c = false ∧ c ≠ ']' := by
  cases h with
  | leaf h =>
      obtain ⟨c, more, rfl, hblank, -, -, hbracket⟩ := h.start
      exact ⟨c, more, rfl, hblank, hbracket⟩
  | noItems => exact ⟨'[', _, rfl, by decide, by decide⟩
  | array => exact ⟨'[', _, rfl, by decide, by decide⟩
  | noEntries => exact ⟨'\x7b', _, rfl, by decide, by decide⟩
  | object => exact ⟨'\x7b', _, rfl, by decide, by decide⟩

/-- Every spelling has a character, which pays for one step of the reader. -/
theorem Spells.length_pos {cs : List Char} {v : Json} (h : Spells cs v) : 0 < cs.length := by
  obtain ⟨c, more, rfl, -⟩ := h.start
  exact Nat.succ_pos _

/-- Items begin with their first value. -/
theorem SpellsItems.start {cs : List Char} {items : List Json} (h : SpellsItems cs items) :
    ∃ c more, cs = c :: more ∧ isBlank c = false ∧ c ≠ ']' := by
  cases h with
  | last h _ =>
      obtain ⟨c, more, rfl, hstart⟩ := h.start
      exact ⟨c, _, rfl, hstart⟩
  | cons h _ _ _ =>
      obtain ⟨c, more, rfl, hstart⟩ := h.start
      exact ⟨c, _, rfl, hstart⟩

theorem SpellsEntries.start {cs : List Char} {entries : List (Key × Json)}
    (h : SpellsEntries cs entries) : ∃ more, cs = '"' :: more := by
  cases h with
  | last key => exact ⟨_, writeString_append key _⟩
  | cons key => exact ⟨_, writeString_append key _⟩

/-! ## §4. One production at a time. -/

variable {fuel : Nat} {cs rest : List Char}

/-- A value that starts with no bracket is a leaf. -/
theorem readValue_of_start {c : Char} {more : List Char} (hskip : skipBlanks cs = c :: more)
    (hbracket : c ≠ '[') (hbrace : c ≠ '\x7b') :
    readValue (fuel + 1) cs = match readLeaf (c :: more) with
      | .ok (v, rest) => (v, .ok rest)
      | .error _ => (.cut (c :: more), .error (c :: more)) := by
  rw [readValue, hskip]
  split
  · rename_i heq
    exact absurd (List.cons.inj heq).1 hbracket
  · rename_i heq
    exact absurd (List.cons.inj heq).1 hbrace
  · rfl

/-- Blanks before a value are skipped. -/
theorem readValue_append {gap : List Char} (h : Blanks gap) (hfuel : 0 < fuel) :
    readValue fuel (gap ++ cs) = readValue fuel cs := by
  obtain ⟨fuel, rfl⟩ := Nat.exists_eq_add_of_le' hfuel
  rw [readValue.eq_def, readValue.eq_def (fuel + 1) cs]
  simp only [skipBlanks_append h]

/-- An array is empty if nothing but blanks stands between its brackets. -/
theorem readValue_noItems {more : List Char} (hskip : skipBlanks more = ']' :: rest) :
    readValue (fuel + 1) ('[' :: more) = (.array [] .closed, .ok rest) := by
  rw [readValue, skipBlanks_cons (by decide)]
  simp only [hskip]

/-- Any other array is read as its items. -/
theorem readValue_array {c : Char} {more tail : List Char} (hskip : skipBlanks more = c :: tail)
    (hc : c ≠ ']') {items : List Json} (h : readItems fuel (c :: tail) = (items, .ok rest)) :
    readValue (fuel + 1) ('[' :: more) = (.array items .closed, .ok rest) := by
  rw [readValue, skipBlanks_cons (by decide)]
  simp only [hskip]
  split
  · rename_i heq
    exact absurd (List.cons.inj heq).1 hc
  · rename_i heq
    exact nomatch heq
  · rw [h]
    rfl

/-- An object is empty if nothing but blanks stands between its braces. -/
theorem readValue_noEntries {more : List Char} (hskip : skipBlanks more = '\x7d' :: rest) :
    readValue (fuel + 1) ('\x7b' :: more) = (.object [] .closed, .ok rest) := by
  rw [readValue, skipBlanks_cons (by decide)]
  simp only [hskip]

theorem readValue_object {more tail : List Char} (hskip : skipBlanks more = '"' :: tail)
    {entries : List (Key × Json)} (h : readEntries fuel ('"' :: tail) = (entries, .ok rest)) :
    readValue (fuel + 1) ('\x7b' :: more) = (.object entries .closed, .ok rest) := by
  rw [readValue, skipBlanks_cons (by decide)]
  simp only [hskip]
  split
  · rename_i heq
    exact nomatch heq
  · rw [h]
    rfl

/-- An item in front of the closing bracket is the last. -/
theorem readItems_last {v : Json} {more : List Char} (hv : readValue fuel cs = (v, .ok more))
    (hskip : skipBlanks more = ']' :: rest) : readItems (fuel + 1) cs = ([v], .ok rest) := by
  rw [readItems, hv]
  simp only [hskip]

theorem readItems_cons {v : Json} {more after tail : List Char} {c : Char}
    (hv : readValue fuel cs = (v, .ok more)) (hskip : skipBlanks more = ',' :: after)
    (hskip' : skipBlanks after = c :: tail) (hc : c ≠ ']') {items : List Json}
    (h : readItems fuel (c :: tail) = (items, .ok rest)) :
    readItems (fuel + 1) cs = (v :: items, .ok rest) := by
  rw [readItems, hv]
  simp only [hskip, hskip']
  split
  · rename_i heq
    exact absurd (List.cons.inj heq).1 hc
  · rw [h]

/-- The key of an entry is read before its value. -/
theorem readEntries_key (key : String) :
    readEntries (fuel + 1) (writeString key ++ cs) = readEntry fuel (.ok key) cs := by
  rw [writeString_append, readEntries, readString_written]
  simp only [String.ofList_toList]

/-- An entry in front of the closing brace is the last. -/
theorem readEntry_last {key : Key} {v : Json} {value more : List Char}
    (hcolon : skipBlanks cs = ':' :: value) (hv : readValue fuel value = (v, .ok more))
    (hskip : skipBlanks more = '\x7d' :: rest) :
    readEntry (fuel + 1) key cs = ([(key, v)], .ok rest) := by
  rw [readEntry]
  simp only [hcolon, hv, hskip]

theorem readEntry_cons {key : Key} {v : Json} {value more after : List Char}
    (hcolon : skipBlanks cs = ':' :: value) (hv : readValue fuel value = (v, .ok more))
    (hskip : skipBlanks more = ',' :: after) {entries : List (Key × Json)}
    (h : readEntries fuel (skipBlanks after) = (entries, .ok rest)) :
    readEntry (fuel + 1) key cs = ((key, v) :: entries, .ok rest) := by
  rw [readEntry]
  simp only [hcolon, hv, hskip, h]

/-! ## §5. Whole values. -/

mutual

/-- **A spelling is read as its value**, wherever it stands. -/
theorem readValue_of_spells {cs : List Char} {v : Json} (h : Spells cs v) (fuel : Nat)
    (rest : List Char) (hfuel : 2 * cs.length ≤ fuel) (hrest : endsNumber rest = true) :
    readValue fuel (cs ++ rest) = (v, .ok rest) := by
  have hpos := h.length_pos
  obtain ⟨fuel, rfl⟩ : ∃ n, fuel = n + 1 := ⟨fuel - 1, by omega⟩
  -- The reader goes by the first character, and a spelling shows which production it began.
  cases h with
  | leaf h =>
      obtain ⟨c, more, rfl, hblank, hbracket, hbrace, -⟩ := h.start
      have hskip := skipBlanks_cons hblank (more ++ rest)
      have hread := h rest hrest
      rw [List.cons_append] at hread ⊢
      rw [readValue_of_start hskip hbracket hbrace, hread]
  | noItems hgap =>
      rw [List.cons_append, List.append_assoc]
      refine readValue_noItems ?_
      rw [skipBlanks_append hgap]
      rfl
  | @array gap cs items hgap h =>
      obtain ⟨c, more, hcs, hblank, hbracket⟩ := h.start
      have hskip : skipBlanks (gap ++ cs ++ rest) = c :: (more ++ rest) := by
        rw [List.append_assoc, skipBlanks_append hgap, hcs]
        exact skipBlanks_cons hblank _
      refine readValue_array hskip hbracket ?_
      rw [← List.cons_append, ← hcs]
      refine readItems_of_spells h fuel rest ?_
      simp only [List.length_cons, List.length_append] at hfuel
      omega
  | noEntries hgap =>
      rw [List.cons_append, List.append_assoc]
      refine readValue_noEntries ?_
      rw [skipBlanks_append hgap]
      rfl
  | @object gap cs entries hgap h =>
      obtain ⟨more, hcs⟩ := h.start
      have hskip : skipBlanks (gap ++ cs ++ rest) = '"' :: (more ++ rest) := by
        rw [List.append_assoc, skipBlanks_append hgap, hcs]
        rfl
      refine readValue_object hskip ?_
      rw [← List.cons_append, ← hcs]
      refine readEntries_of_spells h fuel rest ?_
      simp only [List.length_cons, List.length_append] at hfuel
      omega
termination_by cs.length

/-- Spelled items are read back, with any text behind them. -/
theorem readItems_of_spells {cs : List Char} {items : List Json} (h : SpellsItems cs items)
    (fuel : Nat) (rest : List Char) (hfuel : 2 * cs.length ≤ fuel) :
    readItems fuel (cs ++ rest) = (items, .ok rest) := by
  cases h with
  | @last cs v gap h hgap =>
      simp only [List.length_append, List.length_cons] at hfuel
      obtain ⟨fuel, rfl⟩ : ∃ n, fuel = n + 1 := ⟨fuel - 1, by omega⟩
      have hends : endsNumber (gap ++ ']' :: rest) = true := endsNumber_append hgap rfl
      have hv := readValue_of_spells h fuel (gap ++ ']' :: rest) (by omega) hends
      simp only [List.append_assoc]
      refine readItems_last hv ?_
      rw [skipBlanks_append hgap]
      rfl
  | @cons cs v gap gap' more items h hgap hgap' hmore =>
      simp only [List.length_append, List.length_cons] at hfuel
      obtain ⟨fuel, rfl⟩ : ∃ n, fuel = n + 1 := ⟨fuel - 1, by omega⟩
      obtain ⟨c, tail, hstart, hblank, hbracket⟩ := hmore.start
      have hends : endsNumber (gap ++ ',' :: (gap' ++ (more ++ rest))) = true :=
        endsNumber_append hgap rfl
      have hv := readValue_of_spells h fuel _ (by omega) hends
      have hitems := readItems_of_spells hmore fuel rest (by omega)
      have hskip : skipBlanks (gap' ++ (more ++ rest)) = more ++ rest := by
        rw [skipBlanks_append hgap', hstart]
        exact skipBlanks_cons hblank _
      rw [hstart] at hskip hitems
      simp only [List.append_assoc, List.cons_append]
      rw [hstart] at hv ⊢
      refine readItems_cons hv ?_ hskip hbracket hitems
      rw [skipBlanks_append hgap]
      rfl
termination_by cs.length

/-- Spelled entries are read back, with any text behind them. -/
theorem readEntries_of_spells {cs : List Char} {entries : List (Key × Json)}
    (h : SpellsEntries cs entries) (fuel : Nat) (rest : List Char)
    (hfuel : 2 * cs.length ≤ fuel) : readEntries fuel (cs ++ rest) = (entries, .ok rest) := by
  -- A key and its value take a step of fuel each, which is why the entries cost two.
  cases h with
  | @last key before after cs v gap hbefore hafter h hgap =>
      simp only [List.length_append, List.length_cons] at hfuel
      obtain ⟨fuel, rfl⟩ : ∃ n, fuel = n + 2 := ⟨fuel - 2, by omega⟩
      have hends : endsNumber (gap ++ '\x7d' :: rest) = true := endsNumber_append hgap rfl
      have hpos := h.length_pos
      have hv := readValue_of_spells h fuel (gap ++ '\x7d' :: rest) (by omega) hends
      rw [← readValue_append hafter (by omega)] at hv
      simp only [List.append_assoc, List.cons_append]
      rw [readEntries_key]
      refine readEntry_last (skipBlanks_append hbefore _) hv ?_
      rw [skipBlanks_append hgap]
      rfl
  | @cons key before after cs v gap gap' more entries hbefore hafter h hgap hgap' hmore =>
      simp only [List.length_append, List.length_cons] at hfuel
      obtain ⟨fuel, rfl⟩ : ∃ n, fuel = n + 2 := ⟨fuel - 2, by omega⟩
      obtain ⟨tail, hstart⟩ := hmore.start
      have hends : endsNumber (gap ++ ',' :: (gap' ++ (more ++ rest))) = true :=
        endsNumber_append hgap rfl
      have hpos := h.length_pos
      have hv := readValue_of_spells h fuel _ (by omega) hends
      have hentries := readEntries_of_spells hmore fuel rest (by omega)
      have hskip : skipBlanks (gap' ++ (more ++ rest)) = more ++ rest := by
        rw [skipBlanks_append hgap', hstart]
        rfl
      rw [← hskip] at hentries
      rw [← readValue_append hafter (by omega)] at hv
      simp only [List.append_assoc, List.cons_append]
      rw [readEntries_key]
      refine readEntry_cons (skipBlanks_append hbefore _) hv ?_ hentries
      rw [skipBlanks_append hgap]
      rfl
termination_by cs.length

end

/-! ## §6. Whole texts. -/

/-- **A text that spells a value holds that value and nothing else.** -/
theorem readText_of_spells {cs : List Char} {v : Json} (h : Spells cs v) :
    readText (String.ofList cs) = (v, true) := by
  have hread := readValue_of_spells h (2 * cs.length + 2) [] (by omega) rfl
  rw [List.append_nil] at hread
  unfold readText
  rw [String.toList_ofList]
  simp only [hread]
  rfl

end GifEdit.Json
