/-
  GifEdit.Proofs.Text.Pasting
  ───────────────────────────
  **COMMAND LINES THAT CAN BE PASTED.**

  A command is shown as a line, for people to paste into a shell.  Arguments with a blank, a
  bracket, a semicolon or a quote stand between quotes, where nothing is special; all others
  stand bare, where more is special than that:

      [0:v]fps=15     →  '[0:v]fps=15'       read as it was
      it's            →  'it'\''s'           read as it was
      clip(1).mp4     →  clip(1).mp4         operators
      a\b             →  a\b                 read as `ab`
      (nothing)       →  (nothing)           no word at all

  So a line is read back exactly if every argument stands for itself, quoted or bare
  (`shellLine_read_back_iff`).  That such arguments are enough is followed word by word.  That
  they are needed is a count: nothing that a shell reads weighs more than what was written, an
  argument that does not stand for itself loses weight, and what is lost is never made up for
  (`kept_or_lost`).

  Keywords and assignments, which a shell looks for where a command begins, are not looked for
  here.  Behind the name of the program no argument stands there; in a line of arguments alone
  the first one does.
-/
import GifEdit.Text.Shell
import Mathlib.Data.List.Basic
import Mathlib.Tactic.SplitIfs

namespace GifEdit.Text

variable {c : Char} {word : Option (List Char)} {arg rest : List Char}

/-! ## §1. What a shell makes of a character. -/

theorem readWords_end (word : Option (List Char)) :
    readWords .bare word [] = some (word.toList.map List.reverse) := rfl

theorem readWords_blank (word : Option (List Char)) (rest : List Char) :
    readWords .bare word (' ' :: rest)
      = (readWords .bare none rest).map fun words => word.toList.map List.reverse ++ words := rfl

theorem readWords_quote (word : Option (List Char)) (rest : List Char) :
    readWords .bare word ('\'' :: rest) = readWords .single (some (word.getD [])) rest := rfl

/-- Behind a backslash any character is kept, but for the end of a line. -/
theorem readWords_escape (hc : c ≠ '\n') :
    readWords .bare word ('\\' :: c :: rest)
      = readWords .bare (some (c :: word.getD [])) rest :=
  if_neg hc

/-- A line that ends with a backslash is not complete. -/
theorem readWords_backslash (word : Option (List Char)) :
    readWords .bare word ['\\'] = none := rfl

/-- A bare character is kept if it is special neither anywhere nor where it stands. -/
theorem readWords_bare (hc : callsForQuotes c = false) (hescape : c ≠ '\\') :
    readWords .bare word (c :: rest)
      = if isActive c || (word.isNone && isActiveAtStart c) then none
        else readWords .bare (some (c :: word.getD [])) rest := by
  have hne {d : Char} (hd : callsForQuotes d = true) : c ≠ d := by
    rintro rfl
    exact Bool.false_ne_true (hc.symm.trans hd)
  have hblank : (decide (c = ' ') || decide (c = '\t')) = false := by
    simp [hne (d := ' ') rfl, hne (d := '\t') rfl]
  rw [readWords, hblank, if_neg Bool.false_ne_true, if_neg (hne rfl), if_neg (hne rfl)]
  · exact fun heq _ => hescape heq
  · exact fun _ _ heq _ => hescape heq

theorem readWords_single (word : List Char) (hc : c ≠ '\'') :
    readWords .single (some word) (c :: rest) = readWords .single (some (c :: word)) rest :=
  if_neg hc

theorem readWords_single_end (word : Option (List Char)) (rest : List Char) :
    readWords .single word ('\'' :: rest) = readWords .bare word rest := rfl

/-! ## §2. Words between quotes. -/

/-- What is written between quotes is read as it was, quotes included. -/
theorem readWords_quotedChars (before arg rest : List Char) :
    readWords .single (some before) (arg.flatMap singleQuotedChar ++ '\'' :: rest)
      = readWords .bare (some (arg.reverse ++ before)) rest := by
  induction arg generalizing before with
  | nil => exact readWords_single_end _ _
  | cons c arg ih =>
      rw [List.flatMap_cons, List.append_assoc, List.reverse_cons, List.append_assoc,
        List.singleton_append, ← ih]
      by_cases hc : c = '\''
      · -- A quote is written outside of quotes, behind a backslash.
        subst hc
        show readWords .single (some before) ('\'' :: '\\' :: '\'' :: '\'' :: _) = _
        rw [readWords_single_end, readWords_escape (by decide), readWords_quote]
        rfl
      · rw [singleQuotedChar, if_neg hc, List.singleton_append, readWords_single _ hc]

/-- **Between quotes everything stands for itself.** -/
theorem readWords_quoted (h : arg.any callsForQuotes = true) (word : Option (List Char))
    (rest : List Char) :
    readWords .bare word (shellWord arg ++ rest)
      = readWords .bare (some (arg.reverse ++ word.getD [])) rest := by
  rw [shellWord, if_pos h, List.cons_append, readWords_quote, List.append_assoc,
    List.singleton_append, readWords_quotedChars]

/-! ## §3. Arguments that stand for themselves. -/

/-- A bare word that a shell leaves as it is: nothing in it is special, nor at its start. -/
structure IsPlainWord (arg : List Char) : Prop where
  ne_nil : arg ≠ []
  plain : ∀ c ∈ arg, isActive c = false ∧ c ≠ '\\'
  start : ∀ c ∈ arg.head?, isActiveAtStart c = false

-- Looked for in the word: what is asked of every character could be tried on all there are.
instance (arg : List Char) : Decidable (IsPlainWord arg) :=
  decidable_of_iff (arg ≠ [] ∧ arg.all (fun c => !isActive c && c != '\\') = true
      ∧ arg.head?.all (fun c => !isActiveAtStart c) = true) <| by
    have hplain : arg.all (fun c => !isActive c && c != '\\') = true
        ↔ ∀ c ∈ arg, isActive c = false ∧ c ≠ '\\' := by simp
    have hstart : arg.head?.all (fun c => !isActiveAtStart c) = true
        ↔ ∀ c ∈ arg.head?, isActiveAtStart c = false := by cases arg.head? <;> simp
    rw [hplain, hstart]
    exact ⟨fun ⟨hne, hplain, hstart⟩ => ⟨hne, hplain, hstart⟩,
      fun h => ⟨h.ne_nil, h.plain, h.start⟩⟩

/-- An argument is quoted, or it needs no quotes. -/
def StandsForItself (arg : List Char) : Prop :=
  arg.any callsForQuotes = true ∨ IsPlainWord arg

instance (arg : List Char) : Decidable (StandsForItself arg) :=
  inferInstanceAs (Decidable (_ ∨ _))

/-- Bare characters without a meaning are read as they are. -/
theorem readWords_plain (hquotes : arg.any callsForQuotes = false)
    (hplain : ∀ c ∈ arg, isActive c = false ∧ c ≠ '\\') (before rest : List Char) :
    readWords .bare (some before) (arg ++ rest)
      = readWords .bare (some (arg.reverse ++ before)) rest := by
  induction arg generalizing before with
  | nil => rfl
  | cons c arg ih =>
      rw [List.any_cons, Bool.or_eq_false_iff] at hquotes
      rw [List.forall_mem_cons] at hplain
      rw [List.cons_append, readWords_bare hquotes.1 hplain.1.2, hplain.1.1, Bool.false_or,
        Option.isNone_some, Bool.false_and, if_neg Bool.false_ne_true, Option.getD_some,
        ih hquotes.2 hplain.2, List.reverse_cons, List.append_assoc, List.singleton_append]

/-- **An argument that stands for itself** is read as one word. -/
theorem readWords_stands (h : StandsForItself arg) (rest : List Char) :
    readWords .bare none (shellWord arg ++ rest) = readWords .bare (some arg.reverse) rest := by
  rcases Bool.eq_false_or_eq_true (arg.any callsForQuotes) with hquotes | hquotes
  · rw [readWords_quoted hquotes, Option.getD_none, List.append_nil]
  · have hplain : IsPlainWord arg := h.resolve_left (by simp [hquotes])
    obtain ⟨c, cs, rfl⟩ := List.exists_cons_of_ne_nil hplain.ne_nil
    have hall := hplain.plain
    have hstart := hplain.start c rfl
    rw [shellWord, hquotes, if_neg Bool.false_ne_true]
    rw [List.any_cons, Bool.or_eq_false_iff] at hquotes
    rw [List.forall_mem_cons] at hall
    rw [List.cons_append, readWords_bare hquotes.1 hall.1.2, hall.1.1, hstart, Bool.and_false,
      Bool.or_false, if_neg Bool.false_ne_true, readWords_plain hquotes.2 hall.2,
      Option.getD_none, List.reverse_cons]

/-! ## §4. Lines. -/

/-- The words of a line behind its first one. -/
def laterWords (words : List (List Char)) : List Char := words.flatMap fun w => ' ' :: shellWord w

/-- The characters of a line. -/
def lineChars : List (List Char) → List Char
  | [] => []
  | w :: words => shellWord w ++ laterWords words

/-- The line of some arguments is their words with blanks between them. -/
theorem toList_shellLine (args : List String) :
    (shellLine args).toList = lineChars (args.map String.toList) := by
  have hwords (words : List (List Char)) :
      [' '].intercalate (words.map shellWord) = lineChars words := by
    induction words with
    | nil => rfl
    | cons w words ih =>
        cases words with
        | nil => simp [lineChars, laterWords]
        | cons v words =>
            rw [List.map_cons, List.map_cons, List.intercalate_cons_cons, ← List.map_cons, ih]
            simp [lineChars, laterWords]
  rw [shellLine, String.toList_intercalate, List.map_map, ← hwords, List.map_map]
  have hsame : args.map (String.toList ∘ fun arg => String.ofList (shellWord arg.toList))
      = args.map (shellWord ∘ String.toList) :=
    List.map_congr_left fun arg _ => String.toList_ofList
  rw [hsame]
  rfl

/-- A word that was begun ends where the next argument begins. -/
theorem readWords_laterWords (before : List Char) (words : List (List Char)) :
    readWords .bare (some before) (laterWords words)
      = (readWords .bare none (lineChars words)).map fun read => before.reverse :: read := by
  cases words with
  | nil =>
      show readWords .bare (some before) [] = (readWords .bare none []).map _
      rw [readWords_end, readWords_end]
      rfl
  | cons w words =>
      rw [laterWords, List.flatMap_cons, List.cons_append, readWords_blank]
      rfl

/-- **Arguments that stand for themselves are read back.** -/
theorem readWords_lineChars {words : List (List Char)} (h : ∀ w ∈ words, StandsForItself w) :
    readWords .bare none (lineChars words) = some words := by
  induction words with
  | nil => exact readWords_end none
  | cons w words ih =>
      rw [List.forall_mem_cons] at h
      rw [lineChars, readWords_stands h.1, readWords_laterWords, ih h.2, List.reverse_reverse]
      rfl

/-! ## §5. What is lost. -/

/-- What words weigh: their characters, and one for each word. -/
def weight : List (List Char) → Nat
  | [] => 0
  | w :: words => w.length + 1 + weight words

@[simp]
theorem weight_nil : weight [] = 0 := rfl

@[simp]
theorem weight_cons (w : List Char) (words : List (List Char)) :
    weight (w :: words) = w.length + 1 + weight words := rfl

/-- What is read weighs less than what was written, or as much, and then nothing was lost. -/
def Accounts (read : List (List Char)) (written : Nat) (kept : Prop) : Prop :=
  weight read < written ∨ weight read = written ∧ kept

/-- An argument that goes on with a word, or starts one, and is left as it is. -/
def GoesOn (word : Option (List Char)) (arg : List Char) : Prop :=
  arg.any callsForQuotes = true
    ∨ (∀ c ∈ arg, isActive c = false ∧ c ≠ '\\')
      ∧ (word = none → arg ≠ [] ∧ ∀ c ∈ arg.head?, isActiveAtStart c = false)

/-- What is read of a line is accounted for. -/
def LineAccounts (words : List (List Char)) : Prop :=
  ∀ read, readWords .bare none (lineChars words) = some read →
    Accounts read (weight words) (∀ w ∈ words, StandsForItself w)

/-- What is read of an argument and of those behind it is accounted for, whatever word it is
read into. -/
def ArgumentAccounts (words : List (List Char)) : Prop :=
  ∀ arg word read, readWords .bare word (shellWord arg ++ laterWords words) = some read →
    Accounts read ((word.getD []).length + weight (arg :: words))
      (GoesOn word arg ∧ ∀ w ∈ words, StandsForItself w)

/-- Nothing that is accounted for weighs more than what was written. -/
theorem Accounts.le {read : List (List Char)} {written : Nat} {kept : Prop}
    (h : Accounts read written kept) : weight read ≤ written := by
  rcases h with h | ⟨h, -⟩ <;> omega

/-- An argument that can start a word stands for itself. -/
theorem standsForItself_of_goesOn (h : GoesOn none arg) : StandsForItself arg := by
  rcases h with hquotes | ⟨hplain, hstart⟩
  · exact .inl hquotes
  · exact .inr ⟨(hstart rfl).1, hplain, (hstart rfl).2⟩

variable {words read : List (List Char)}

theorem lineAccounts_nil : LineAccounts [] := by
  intro read h
  obtain rfl := Option.some.inj ((readWords_end none).symm.trans h)
  exact .inr ⟨rfl, nofun⟩

/-- A line is accounted for if its first argument and those behind it are. -/
theorem lineAccounts_cons {w : List Char} (h : ArgumentAccounts words) :
    LineAccounts (w :: words) := by
  intro read hread
  rcases h w none read hread with hlost | ⟨heq, hgoes, hall⟩
  · exact .inl (by simpa using hlost)
  · exact .inr ⟨by simpa using heq,
      List.forall_mem_cons.mpr ⟨standsForItself_of_goesOn hgoes, hall⟩⟩

/-- A word that ends weighs what was read into it. -/
theorem accounts_end (hline : LineAccounts words) (kept : Prop) {before : List Char}
    (h : readWords .bare (some before) (laterWords words) = some read) (hkept : kept) :
    Accounts read (before.length + 1 + weight words)
      (kept ∧ ∀ w ∈ words, StandsForItself w) := by
  rw [readWords_laterWords] at h
  obtain ⟨later, hlater, rfl⟩ := Option.map_eq_some_iff.mp h
  rw [Accounts, weight_cons, List.length_reverse]
  rcases hline later hlater with hlost | ⟨heq, hall⟩
  · exact .inl (by omega)
  · exact .inr ⟨by omega, hkept, hall⟩

/-- A plain character is kept, unless something special makes a shell give up. -/
theorem accounts_plain (hc : callsForQuotes c = false) (hescape : c ≠ '\\') {kept : Prop}
    (h : readWords .bare word (c :: rest) = some read)
    (hrest : readWords .bare (some (c :: word.getD [])) rest = some read →
      Accounts read (((some (c :: word.getD [])).getD []).length + weight (arg :: words))
        (GoesOn (some (c :: word.getD [])) arg ∧ kept)) :
    Accounts read ((word.getD []).length + weight ((c :: arg) :: words))
      (GoesOn word (c :: arg) ∧ kept) := by
  rw [readWords_bare hc hescape] at h
  split_ifs at h with hspecial
  rw [Bool.or_eq_true, not_or, Bool.not_eq_true, Bool.not_eq_true, Bool.and_eq_false_imp,
    Option.isNone_iff_eq_none] at hspecial
  have hwritten : ((some (c :: word.getD [])).getD []).length + weight (arg :: words)
      = (word.getD []).length + weight ((c :: arg) :: words) := by
    simp only [Option.getD_some, List.length_cons, weight_cons]
    omega
  have haccounts := hrest h
  rw [hwritten] at haccounts
  refine haccounts.imp_right fun ⟨heq, hgoes, hkept⟩ => ⟨heq, ?_, hkept⟩
  rcases hgoes with hquotes | ⟨hplain, -⟩
  · exact .inl (by rw [List.any_cons, hquotes, Bool.or_true])
  · refine .inr ⟨List.forall_mem_cons.mpr ⟨⟨hspecial.1, hescape⟩, hplain⟩, fun hword => ?_⟩
    refine ⟨List.cons_ne_nil c arg, ?_⟩
    rintro d ⟨rfl⟩
    exact hspecial.2 hword

/-- Bare characters, one by one.  A backslash is lost in any case: the character behind it may
be kept, and at the end of an argument it takes the blank into the word. -/
theorem accounts_bare (hline : LineAccounts words)
    (hnext : ∀ w later, words = w :: later → ArgumentAccounts later) (arg : List Char)
    (word : Option (List Char)) (hquotes : arg.any callsForQuotes = false)
    (h : readWords .bare word (arg ++ laterWords words) = some read) :
    Accounts read ((word.getD []).length + weight (arg :: words))
      (GoesOn word arg ∧ ∀ w ∈ words, StandsForItself w) := by
  match arg, word with
  | [], none =>
      have hread : readWords .bare none (lineChars words) = some read := by
        cases words with
        | nil => exact h
        | cons w later =>
            rw [List.nil_append, laterWords, List.flatMap_cons, List.cons_append,
              readWords_blank] at h
            simpa [lineChars, laterWords] using h
      have hle := (hline read hread).le
      -- An empty argument is no word.
      exact .inl (by simp only [Option.getD_none, List.length_nil, weight_cons]; omega)
  | [], some before =>
      have hend := accounts_end hline (GoesOn (some before) []) h (.inr ⟨nofun, nofun⟩)
      simpa [Nat.add_assoc, Nat.add_comm] using hend
  | [c], word =>
      rw [List.any_cons, Bool.or_eq_false_iff] at hquotes
      by_cases hescape : c = '\\'
      · subst hescape
        cases words with
        | nil =>
            rw [laterWords, List.flatMap_nil, List.append_nil, readWords_backslash] at h
            exact nomatch h
        | cons w later =>
            have htext : ['\\'] ++ laterWords (w :: later)
                = '\\' :: ' ' :: (shellWord w ++ laterWords later) := by
              simp [laterWords]
            rw [htext, readWords_escape (by decide)] at h
            have hle := (hnext w later rfl w _ read h).le
            simp only [Option.getD_some, List.length_cons, weight_cons] at hle
            exact .inl (by simp only [List.length_cons, List.length_nil, weight_cons]; omega)
      · exact accounts_plain hquotes.1 hescape h (accounts_bare hline hnext [] _ hquotes.2)
  | c :: d :: arg, word =>
      rw [List.any_cons, Bool.or_eq_false_iff] at hquotes
      by_cases hescape : c = '\\'
      · subst hescape
        have hnewline : d ≠ '\n' := by
          rintro rfl
          exact nomatch hquotes.2
        have hlater := (Bool.or_eq_false_iff.mp (List.any_cons.symm.trans hquotes.2)).2
        rw [List.cons_append, List.cons_append, readWords_escape hnewline] at h
        have hle := (accounts_bare hline hnext arg _ hlater h).le
        simp only [Option.getD_some, List.length_cons, weight_cons] at hle
        exact .inl (by simp only [List.length_cons, weight_cons]; omega)
      · exact accounts_plain hquotes.1 hescape h (accounts_bare hline hnext (d :: arg) _ hquotes.2)

/-- An argument is accounted for, quoted or bare, if what stands behind it is. -/
theorem argumentAccounts (hline : LineAccounts words)
    (hnext : ∀ w later, words = w :: later → ArgumentAccounts later) :
    ArgumentAccounts words := by
  intro arg word read h
  by_cases hquotes : arg.any callsForQuotes = true
  · rw [readWords_quoted hquotes] at h
    have hend := accounts_end hline (GoesOn word arg) h (.inl hquotes)
    rw [List.length_append, List.length_reverse] at hend
    have hwritten : (word.getD []).length + weight (arg :: words)
        = arg.length + (word.getD []).length + 1 + weight words := by
      rw [weight_cons]
      omega
    rw [hwritten]
    exact hend
  · rw [shellWord, if_neg hquotes] at h
    exact accounts_bare hline hnext arg word (Bool.eq_false_iff.mpr hquotes) h

/-- **Nothing is won, and what is not kept is lost.** -/
theorem kept_or_lost (words : List (List Char)) : ArgumentAccounts words := by
  induction words with
  | nil => exact argumentAccounts lineAccounts_nil nofun
  | cons w words ih =>
      refine argumentAccounts (lineAccounts_cons ih) ?_
      rintro _ _ ⟨rfl, rfl⟩
      exact ih

/-- Every line is accounted for, the empty one included. -/
theorem lineAccounts (words : List (List Char)) : LineAccounts words := by
  cases words with
  | nil => exact lineAccounts_nil
  | cons w words => exact lineAccounts_cons (kept_or_lost words)

/-- **A line is read back exactly if its words stand for themselves.** -/
theorem readWords_lineChars_iff (words : List (List Char)) :
    readWords .bare none (lineChars words) = some words ↔ ∀ w ∈ words, StandsForItself w := by
  constructor
  · intro h
    rcases lineAccounts words words h with hlost | ⟨-, hall⟩
    · exact absurd hlost (Nat.lt_irrefl _)
    · exact hall
  · exact readWords_lineChars

/-! ## §6. Commands. -/

/-- The words of a text are those of its characters. -/
theorem shellWords?_eq_some_iff {line : String} {args : List String} :
    shellWords? line = some args
      ↔ readWords .bare none line.toList = some (args.map String.toList) := by
  unfold shellWords?
  rw [Option.map_eq_some_iff]
  constructor
  · rintro ⟨words, hread, rfl⟩
    rw [hread, List.map_map]
    simp [Function.comp_def]
  · intro hread
    refine ⟨_, hread, ?_⟩
    rw [List.map_map]
    simp [Function.comp_def]

/-- Behind the name of the program the words of a line are the same. -/
theorem readWords_program (line : List Char) :
    readWords .bare none ("  ffmpeg ".toList ++ line)
      = (readWords .bare none line).map fun words => "ffmpeg".toList :: words := by
  have hname : StandsForItself "ffmpeg".toList := by decide
  show readWords .bare none (' ' :: ' ' :: (shellWord "ffmpeg".toList ++ ' ' :: line)) = _
  rw [readWords_blank, readWords_blank, readWords_stands hname, readWords_blank, Option.map_map,
    Option.map_map]
  rfl

/-- **A COMMAND CAN BE PASTED EXACTLY IF EVERY ARGUMENT STANDS FOR ITSELF**: it holds a
character that calls for quotes, or it is not empty, holds no operator, expansion, pattern or
backslash and does not begin as a comment or a home directory.  Then, and only then, a shell
reads the arguments in their line, alone or behind the name of the program, as they are shown.

`shellWords?` splits a line into words and looks for no keywords or assignments.  Behind the
name of the program there are none to be found; of the arguments alone it is their words that
are told, and not what a shell would do with a first one such as `if` or `a=b`. -/
theorem shellLine_read_back_iff (args : List String) :
    (shellWords? (shellLine args) = some args
        ↔ ∀ arg ∈ args, StandsForItself arg.toList)
      ∧ (shellWords? ("  ffmpeg " ++ shellLine args) = some ("ffmpeg" :: args)
        ↔ ∀ arg ∈ args, StandsForItself arg.toList) := by
  have hwords : (∀ w ∈ args.map String.toList, StandsForItself w)
      ↔ ∀ arg ∈ args, StandsForItself arg.toList := List.forall_mem_map
  have hline := readWords_lineChars_iff (args.map String.toList)
  rw [hwords] at hline
  constructor
  · rw [shellWords?_eq_some_iff, toList_shellLine, hline]
  · rw [shellWords?_eq_some_iff, String.toList_append, toList_shellLine, readWords_program,
      ← hline, List.map_cons, Option.map_eq_some_iff]
    simp

/-- Arguments with a quote, a blank, brackets, and a sign that is special at a start only. -/
theorem shellLine_read_back_iff_quoted :
    let args := ["-i", "it's mine.mp4", "[0:v]fps=15;[a]", "take#2~.gif"]
    (∀ arg ∈ args, StandsForItself arg.toList)
      ∧ shellLine args = "-i 'it'\\''s mine.mp4' '[0:v]fps=15;[a]' take#2~.gif"
      ∧ shellWords? (shellLine args) = some args := by
  intro args
  have hall : ∀ arg ∈ args, StandsForItself arg.toList := by decide +kernel
  exact ⟨hall, by decide +kernel, (shellLine_read_back_iff args).1.mpr hall⟩

/-- **A command that cannot be pasted**: the name of the clip holds parentheses, and they are
shown bare. -/
theorem parentheses_break_command :
    let args := ["-y", "-i", "clip(1).mp4", "clip(1).gif"]
    (∀ arg ∈ args, '\x00' ∉ arg.toList)
      ∧ shellLine args = "-y -i clip(1).mp4 clip(1).gif"
      ∧ shellWords? (shellLine args) ≠ some args
      ∧ shellWords? ("  ffmpeg " ++ shellLine args) ≠ some ("ffmpeg" :: args) := by
  decide +kernel

end GifEdit.Text
