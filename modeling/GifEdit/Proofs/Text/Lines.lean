/-
  GifEdit.Proofs.Text.Lines
  ─────────────────────────
  **LINES, APART AND TOGETHER.**

  A text is the pieces between its line feeds, and pieces without a line feed are what the
  text they are joined to falls into (`pieces_joined`).  Trimming sees neither the blanks
  around a piece nor the carriage return at its end.
-/
import GifEdit.Text.Blank
import Mathlib.Data.List.Basic

namespace GifEdit.Text

/-! ## §1. Pieces. -/

/-- The text of pieces, with a line feed between them. -/
def joined : List (List Char) → List Char
  | [] => []
  | [piece] => piece
  | piece :: next :: rest => piece ++ '\n' :: joined (next :: rest)

theorem pieces_ne_nil (cs : List Char) : pieces cs ≠ [] := by
  unfold pieces
  split
  · exact nofun
  · exact nofun
  · split <;> exact nofun

theorem pieces_newline (cs : List Char) : pieces ('\n' :: cs) = [] :: pieces cs := by
  rw [pieces]

theorem pieces_cons {c : Char} (hc : c ≠ '\n') {cs piece : List Char}
    {rest : List (List Char)} (h : pieces cs = piece :: rest) :
    pieces (c :: cs) = (c :: piece) :: rest := by
  rw [pieces]
  · rw [h]
  · exact hc

/-- A line feed ends a piece. -/
theorem pieces_append (a b : List Char) :
    pieces (a ++ '\n' :: b) = pieces a ++ pieces b := by
  induction a with
  | nil =>
      rw [List.nil_append, pieces_newline]
      rfl
  | cons c a ih =>
      by_cases hc : c = '\n'
      · subst hc
        rw [List.cons_append, pieces_newline, pieces_newline, ih, List.cons_append]
      · obtain ⟨piece, rest, hpieces⟩ := List.exists_cons_of_ne_nil (pieces_ne_nil a)
        rw [hpieces] at ih
        rw [List.cons_append, pieces_cons hc hpieces, pieces_cons hc ih]
        rfl

theorem pieces_of_notMem {cs : List Char} (h : '\n' ∉ cs) : pieces cs = [cs] := by
  induction cs with
  | nil => rfl
  | cons c cs ih =>
      rw [List.mem_cons, not_or] at h
      exact pieces_cons (Ne.symm h.1) (ih h.2)

/-- No line feed is left in a piece. -/
theorem newline_notMem_pieces {cs piece : List Char} (h : piece ∈ pieces cs) : '\n' ∉ piece := by
  induction cs generalizing piece with
  | nil =>
      obtain rfl := List.mem_singleton.mp h
      exact List.not_mem_nil
  | cons c cs ih =>
      -- A line feed begins a new piece, and any other character goes into the first.
      by_cases hc : c = '\n'
      · subst hc
        rw [pieces_newline] at h
        rcases List.mem_cons.mp h with rfl | h
        · exact List.not_mem_nil
        · exact ih h
      · obtain ⟨first, rest, hpieces⟩ := List.exists_cons_of_ne_nil (pieces_ne_nil cs)
        rw [hpieces] at ih
        rw [pieces_cons hc hpieces] at h
        rcases List.mem_cons.mp h with rfl | h
        · intro hmem
          rcases List.mem_cons.mp hmem with heq | hmem
          · exact hc heq.symm
          · exact ih List.mem_cons_self hmem
        · exact ih (List.mem_cons_of_mem first h)

/-- **Pieces that are joined fall apart again.** -/
theorem pieces_joined {lines : List (List Char)} (hne : lines ≠ [])
    (hlines : ∀ line ∈ lines, '\n' ∉ line) : pieces (joined lines) = lines := by
  induction lines with
  | nil => exact absurd rfl hne
  | cons line lines ih =>
      rw [List.forall_mem_cons] at hlines
      cases lines with
      | nil => exact pieces_of_notMem hlines.1
      | cons next rest =>
          rw [joined, pieces_append, pieces_of_notMem hlines.1, ih nofun hlines.2]
          rfl

/-! ## §2. Trimming. -/

theorem trimFront_append {gap : List Char} (h : ∀ c ∈ gap, isBlank c = true) (cs : List Char) :
    trimFront (gap ++ cs) = trimFront cs :=
  List.dropWhile_append_of_pos h

theorem trimFront_eq_nil {gap : List Char} (h : ∀ c ∈ gap, isBlank c = true) :
    trimFront gap = [] := by
  have hall := trimFront_append h []
  rw [List.append_nil] at hall
  exact hall

theorem trimFront_cons {c : Char} (h : isBlank c = false) (cs : List Char) :
    trimFront (c :: cs) = c :: cs := by
  unfold trimFront
  rw [List.dropWhile_cons, h]
  rfl

/-- **Blanks around a text are trimmed.** -/
theorem trim_surrounded {before after : List Char} (hbefore : ∀ c ∈ before, isBlank c = true)
    (hafter : ∀ c ∈ after, isBlank c = true) (cs : List Char) :
    trim (before ++ cs ++ after) = trim cs := by
  unfold trim
  rw [List.append_assoc, trimFront_append hbefore]
  have hfront : trimFront (cs ++ after)
      = if (trimFront cs).isEmpty then trimFront after else trimFront cs ++ after :=
    List.dropWhile_append
  rw [hfront, trimFront_eq_nil hafter]
  -- A text of blanks alone is trimmed away from the front, with what follows it.
  cases hcs : trimFront cs with
  | nil => rfl
  | cons c rest =>
      have hreverse : ∀ d ∈ after.reverse, isBlank d = true :=
        fun d hd => hafter d (List.mem_reverse.mp hd)
      rw [List.isEmpty_cons, if_neg Bool.false_ne_true, List.reverse_append,
        trimFront_append hreverse]

/-- The character before which nothing is trimmed stays the first. -/
theorem trim_cons {c : Char} (h : isBlank c = false) (cs : List Char) :
    trim (c :: cs) = c :: (trimFront cs.reverse).reverse := by
  have hback : trimFront (cs.reverse ++ [c])
      = if (trimFront cs.reverse).isEmpty then trimFront [c] else trimFront cs.reverse ++ [c] :=
    List.dropWhile_append
  unfold trim
  rw [trimFront_cons h, List.reverse_cons, hback]
  cases hcs : trimFront cs.reverse with
  | nil =>
      rw [List.isEmpty_nil, if_pos rfl, trimFront_cons h]
      rfl
  | cons d rest =>
      rw [List.isEmpty_cons, if_neg Bool.false_ne_true, List.reverse_append]
      rfl

/-- A text between characters that are no blanks is left as it is. -/
theorem trim_of_ends {c d : Char} (hc : isBlank c = false) (hd : isBlank d = false)
    (cs : List Char) : trim (c :: (cs ++ [d])) = c :: (cs ++ [d]) := by
  rw [trim_cons hc, List.reverse_append, List.reverse_singleton, List.singleton_append,
    trimFront_cons hd, List.reverse_cons, List.reverse_reverse]

/-- The carriage return at the end of a line is a blank. -/
theorem trim_dropReturn (line : List Char) : trim (dropReturn line) = trim line := by
  unfold dropReturn
  split
  · rename_i hlast
    have hreturn : ∀ c ∈ ['\r'], isBlank c = true := by
      intro c hc
      obtain rfl := List.mem_singleton.mp hc
      rfl
    have htrim := @trim_surrounded [] ['\r'] nofun hreturn line.dropLast
    rw [List.nil_append, List.dropLast_append_getLast? '\r' hlast] at htrim
    exact htrim.symm
  · rfl

/-! ## §3. Lines. -/

/-- **Trimmed lines are trimmed pieces**, apart from one that may be empty. -/
theorem filter_map_trim_lines {p : List Char → Bool} (hp : p [] = false) (cs : List Char) :
    ((lines cs).map trim).filter p = ((pieces cs).map trim).filter p := by
  obtain ⟨whole, last, hpieces⟩ : ∃ whole last, pieces cs = whole ++ [last] :=
    ⟨_, _, (List.dropLast_append_getLast (pieces_ne_nil cs)).symm⟩
  have htrim : (whole.map dropReturn).map trim = whole.map trim := by
    rw [List.map_map]
    exact List.map_congr_left fun line _ => trim_dropReturn line
  unfold lines
  simp only [hpieces, List.dropLast_concat, List.getLast?_concat]
  cases last with
  | nil =>
      have hnone : [[]].filter p = [] := by simp [hp]
      rw [htrim, List.map_append, List.filter_append]
      show _ = _ ++ [[]].filter p
      rw [hnone, List.append_nil]
  | cons c last =>
      rw [List.map_append, htrim, List.map_append]

end GifEdit.Text
