/-
  GifEdit.Proofs.Text.Path
  ────────────────────────
  **PATHS, TAKEN APART AND PUT TOGETHER.**

  A path is compared by its components and followed by its steps.  Both come from the pieces
  between its slashes; dots are steps, but only a leading one is a component:

      text         ./a//b/./c.gif/.
      steps        . a b . c.gif .
      components   ./ a b c.gif
      parent       ./a//b
      file name    c.gif

  A path with a file name enters it from its parent, with nothing but dots around the name
  (`exists_parent`), and a name that is joined to a path is entered from there (`join_name`).
  So replacing the file name of a path leaves the directory that a name is entered from.

  The components of a path say where it starts, which steps it makes besides dots, and which
  file name it ends in (`isAbsolute_iff`, `moves_eq`, `fileName?_of_components`).
-/
import GifEdit.Files.Tree
import Mathlib.Data.List.Basic
import Mathlib.Data.List.Infix
import Mathlib.Data.List.TakeWhile

namespace GifEdit.Path

/-! ## §1. Pieces. -/

/-- The pieces are those that the slashes leave, so the library's lemmas apply to them. -/
theorem pieces_eq_splitOn (cs : List Char) : pieces cs = cs.splitOn '/' := by
  induction cs with
  | nil => rfl
  | cons c cs ih =>
      rw [List.splitOn_cons_eq_if_modifyHead, ← ih]
      by_cases hc : c = '/'
      · subst hc
        rw [if_pos (beq_self_eq_true _), pieces]
      · -- Any other character is put before the first piece of the rest.
        rw [if_neg (by simpa using hc), pieces]
        · have hne : pieces cs ≠ [] := by
            rw [ih]
            exact List.splitOn_ne_nil _ _
          obtain ⟨piece, rest, hpieces⟩ := List.exists_cons_of_ne_nil hne
          rw [hpieces]
          rfl
        · exact hc

/-- The pieces of a text that are steps. -/
def walk (cs : List Char) : List (List Char) := (pieces cs).filter (· != [])

/-- At any slash a way falls into two ways. -/
theorem walk_append_slash (a b : List Char) : walk (a ++ '/' :: b) = walk a ++ walk b := by
  unfold walk
  simp only [pieces_eq_splitOn]
  rw [List.splitOn_append_cons_self, List.filter_append]

theorem walk_slash (cs : List Char) : walk ('/' :: cs) = walk cs :=
  walk_append_slash [] cs

theorem walk_append_slash_nil (cs : List Char) : walk (cs ++ ['/']) = walk cs :=
  (walk_append_slash cs []).trans (List.append_nil _)

/-- What has no slash is one step. -/
theorem walk_of_notMem {cs : List Char} (hslash : '/' ∉ cs) (hne : cs ≠ []) : walk cs = [cs] := by
  unfold walk
  rw [pieces_eq_splitOn, List.splitOn_eq_singleton hslash]
  exact List.filter_cons_of_pos (by simpa using hne)

/-- Empty pieces are no components. -/
theorem filterMap_walk (cs : List Char) :
    (walk cs).filterMap component? = (pieces cs).filterMap component? := by
  unfold walk
  rw [List.filterMap_filter]
  refine List.filterMap_congr fun piece _ => ?_
  cases piece with
  | nil => rfl
  | cons c piece => rfl

/-! ## §2. Bodies, searched from the end. -/

/-- The last piece begins behind a slash. -/
theorem slash_notMem_lastPiece (body : List Char) : '/' ∉ lastPiece body := by
  unfold lastPiece
  rw [List.mem_reverse]
  intro hmem
  have hslash := List.mem_takeWhile_imp hmem
  exact absurd hslash (by decide)

/-- A body is its last piece, perhaps behind a slash. -/
theorem reverse_eq (body : List Char) :
    (dropPiece body = [] ∧ body.reverse = lastPiece body)
      ∨ body.reverse = (dropPiece body).reverse ++ '/' :: lastPiece body := by
  have hparts := List.takeWhile_append_dropWhile (p := (· != '/')) (l := body)
  have hhead := List.head?_dropWhile_not (· != '/') body
  unfold dropPiece lastPiece
  cases hdrop : body.dropWhile (· != '/') with
  | nil =>
      rw [hdrop, List.append_nil] at hparts
      exact .inl ⟨rfl, congrArg List.reverse hparts.symm⟩
  | cons c rest =>
      rw [hdrop] at hparts hhead
      obtain rfl : c = '/' := by simpa using hhead
      right
      conv_lhs => rw [← hparts]
      rw [List.reverse_append, List.reverse_cons, List.append_assoc]
      rfl

/-- Dropping the last piece leaves the rest of the body. -/
theorem dropPiece_suffix (body : List Char) : dropPiece body <:+ body :=
  (List.drop_suffix _ _).trans (List.dropWhile_suffix _)

/-- The last piece is the last step of the way. -/
theorem walk_reverse (body : List Char) :
    walk body.reverse = walk (dropPiece body).reverse ++ walk (lastPiece body) := by
  rcases reverse_eq body with ⟨hdrop, hlast⟩ | hboth
  · rw [hdrop, hlast]
    rfl
  · rw [hboth, walk_append_slash]

/-- Trimming leaves the rest of the body. -/
theorem trimPieces_suffix (body : List Char) : trimPieces body <:+ body := by
  induction body using trimPieces.induct with
  | case1 => rw [trimPieces]
  | case2 c body h => rw [trimPieces, if_pos h]
  | case3 c body h ih =>
      rw [trimPieces, if_neg h]
      exact ih.trans (dropPiece_suffix _)

/-- A piece that is no component is empty or a dot. -/
theorem walk_of_component?_eq_none {piece : List Char} (h : component? piece = none) :
    ∀ d ∈ walk piece, d = ['.'] := by
  unfold component? at h
  split at h
  · exact nofun
  · decide
  · exact nomatch h
  · exact nomatch h

/-- **What is trimmed are dots**, which lead nowhere else. -/
theorem walk_trimPieces (body : List Char) :
    ∃ dots, (∀ d ∈ dots, d = ['.'])
      ∧ walk body.reverse = walk (trimPieces body).reverse ++ dots := by
  induction body using trimPieces.induct with
  | case1 =>
      rw [trimPieces]
      exact ⟨[], nofun, rfl⟩
  | case2 c body h =>
      rw [trimPieces, if_pos h]
      exact ⟨[], nofun, (List.append_nil _).symm⟩
  | case3 c body h ih =>
      obtain ⟨dots, hdots, hwalk⟩ := ih
      rw [Option.not_isSome_iff_eq_none] at h
      rw [trimPieces, if_neg (by simp [h]), walk_reverse, hwalk, List.append_assoc]
      exact ⟨_, List.forall_mem_append.mpr ⟨hdots, walk_of_component?_eq_none h⟩, rfl⟩

/-- A dot alone does not survive trimming. -/
theorem trimPieces_ne_dot (body : List Char) : trimPieces body ≠ ['.'] := by
  induction body using trimPieces.induct with
  | case1 =>
      rw [trimPieces]
      exact nofun
  | case2 c body h =>
      rw [trimPieces, if_pos h]
      rintro hdot
      rw [hdot] at h
      exact absurd h (by decide)
  | case3 c body h ih =>
      rw [trimPieces, if_neg h]
      exact ih

/-! ## §3. Heads. -/

/-- The leading slash or dot of a path. -/
def head (p : Path) : List Char := (splitHead p.text.toList).1

/-- The rest of a path, in which its names are searched. -/
def body (p : Path) : List Char := (splitHead p.text.toList).2

/-- The component that a head makes. -/
def leading : List Char → List Component
  | ['/'] => [.root]
  | ['.'] => [.current]
  | _ => []

/-- The steps of a path are those of its head and then those of its body. -/
theorem steps_eq (p : Path) : p.steps = walk p.head ++ walk p.body := by
  show walk p.text.toList = _
  unfold head body
  fun_cases splitHead p.text.toList with
  | case1 cs => exact walk_slash cs
  | case2 => rfl
  | case3 cs =>
      rw [walk_slash]
      exact walk_append_slash ['.'] cs
  | case4 cs => rfl

/-- **The components of a path** are its head and those of its steps that are more than a
dot. -/
theorem components_eq (p : Path) :
    p.components = leading p.head ++ p.steps.filterMap component? := by
  have hdefinition : p.components = leading p.head ++ (pieces p.body).filterMap component? :=
    rfl
  -- The head is a step at most, and then a dot.
  have hdots : (walk p.head).filterMap component? = [] := by
    unfold head splitHead
    split <;> rfl
  rw [hdefinition, steps_eq, List.filterMap_append, hdots, filterMap_walk, List.nil_append]

/-- A path is absolute if its head is a slash. -/
theorem isAbsolute_eq (p : Path) : p.isAbsolute = (p.head == ['/']) := by
  unfold isAbsolute head
  generalize p.text.toList = cs
  fun_cases splitHead cs with
  | case1 cs => rfl
  | case2 => rfl
  | case3 cs => rfl
  | case4 cs hslash =>
      cases cs with
      | nil => rfl
      | cons c cs =>
          have hc : c ≠ '/' := by
            rintro rfl
            exact hslash cs rfl
          simpa using hc

/-- A front part of a body has the same head before it, unless it is a dot. -/
theorem splitHead_beginning (cs : List Char) {start : List Char}
    (hstart : start <+: (splitHead cs).2) (hdot : start ≠ ['.']) :
    splitHead ((splitHead cs).1 ++ start) = ((splitHead cs).1, start) := by
  revert hstart
  fun_cases splitHead cs with
  | case1 cs => exact fun _ => rfl
  | case2 =>
      intro hstart
      rw [List.prefix_nil.mp hstart]
      rfl
  | case3 cs =>
      intro hstart
      cases start with
      | nil => rfl
      | cons c start =>
          obtain ⟨rfl, -⟩ := List.cons_prefix_cons.mp hstart
          rfl
  | case4 cs hslash _ hlead =>
      -- A beginning that has a head would give it to the whole, but for a dot alone.
      rintro ⟨rest, rfl⟩
      rw [List.nil_append, splitHead]
      · rintro rest' rfl
        exact hslash _ rfl
      · exact hdot
      · rintro rest' rfl
        exact hlead _ rfl

/-- **The beginning of a path** has its head, unless the rest could be taken for one. -/
theorem beginning {p : Path} {start : List Char} (hstart : start <+: p.body)
    (hdot : start ≠ ['.']) :
    head ⟨String.ofList (p.head ++ start)⟩ = p.head
      ∧ body ⟨String.ofList (p.head ++ start)⟩ = start := by
  have hsplit : splitHead (String.ofList (p.head ++ start)).toList = (p.head, start) := by
    rw [String.toList_ofList]
    exact splitHead_beginning p.text.toList hstart hdot
  constructor
  · show (splitHead (String.ofList (p.head ++ start)).toList).1 = p.head
    rw [hsplit]
  · show (splitHead (String.ofList (p.head ++ start)).toList).2 = start
    rw [hsplit]

/-- What is behind a path leaves its head, unless it makes a dot into a name. -/
theorem splitHead_append {cs : List Char} (hne : cs ≠ []) {rest : List Char}
    (hdot : cs = ['.'] → rest.head? = some '/') :
    (splitHead (cs ++ rest)).1 = (splitHead cs).1 := by
  fun_cases splitHead cs with
  | case1 cs => rfl
  | case2 =>
      obtain ⟨rest', rfl⟩ := List.head?_eq_some_iff.mp (hdot rfl)
      rfl
  | case3 cs => rfl
  | case4 cs hslash hdot hlead =>
      -- No head begins in one text and ends in the other.
      obtain ⟨c, cs, rfl⟩ := List.exists_cons_of_ne_nil hne
      have hnone : splitHead (c :: cs ++ rest) = ([], c :: cs ++ rest) := by
        rw [splitHead]
        · rintro rest' heq
          obtain ⟨rfl, -⟩ := List.cons.inj heq
          exact hslash cs rfl
        · intro heq
          obtain ⟨rfl, hnil⟩ := List.cons.inj heq
          obtain ⟨rfl, -⟩ := List.append_eq_nil_iff.mp hnil
          exact hdot rfl
        · rintro rest' heq
          obtain ⟨rfl, hbehind⟩ := List.cons.inj heq
          cases cs with
          | nil => exact hdot rfl
          | cons d cs =>
              obtain ⟨rfl, -⟩ := List.cons.inj hbehind
              exact hlead cs rfl
      rw [hnone]

/-! ## §4. Entries. -/

/-- A name that a directory can have an entry of. -/
def IsName (name : List Char) : Prop := component? name = some (.name name) ∧ '/' ∉ name

/-- A path that enters a name from a directory, with nothing but dots around the name. -/
structure Enters (p dir : Path) (name : List Char) : Prop where
  isName : IsName name
  head : p.head = dir.head
  steps : ∃ before after, (∀ d ∈ before ++ after, d = ['.'])
    ∧ p.steps = dir.steps ++ before ++ name :: after

theorem component?_eq_name {piece name : List Char}
    (h : component? piece = some (.name name)) : piece = name := by
  unfold component? at h
  split at h
  · exact nomatch h
  · exact nomatch h
  · exact nomatch h
  · exact Component.name.inj (Option.some.inj h)

/-- A piece longer than two dots is a name. -/
theorem component?_of_length {piece : List Char} (h : 2 < piece.length) :
    component? piece = some (.name piece) := by
  unfold component?
  split
  · exact absurd h (by decide)
  · exact absurd h (by decide)
  · exact absurd h (by decide)
  · rfl

theorem IsName.ne_nil {name : List Char} (h : IsName name) : name ≠ [] := by
  rintro rfl
  exact nomatch h.1

/-- A name is one step on its own. -/
theorem IsName.walk {name : List Char} (h : IsName name) : walk name = [name] :=
  walk_of_notMem h.2 h.ne_nil

/-- Dots are no components. -/
theorem filterMap_dots {dots : List (List Char)} (h : ∀ d ∈ dots, d = ['.']) :
    dots.filterMap component? = [] := by
  rw [List.filterMap_eq_nil_iff]
  intro d hd
  rw [h d hd]
  rfl

/-- **A name is one more component.** -/
theorem Enters.components {p dir : Path} {name : List Char} (h : p.Enters dir name) :
    p.components = dir.components ++ [.name name] := by
  obtain ⟨before, after, hdots, hsteps⟩ := h.steps
  rw [List.forall_mem_append] at hdots
  rw [components_eq, components_eq, h.head, hsteps]
  simp only [List.filterMap_append, List.filterMap_cons, filterMap_dots hdots.1,
    filterMap_dots hdots.2, h.isName.1, List.nil_append, List.append_assoc]

/-- An entry and its directory are counted from the same place. -/
theorem Enters.origin {p dir : Path} {name : List Char} (h : p.Enters dir name) :
    p.origin = dir.origin := by
  unfold Path.origin
  rw [isAbsolute_eq, isAbsolute_eq, h.head]

/-- The directory of a path that names a file is what stands before that name. -/
theorem parent?_of_fileName? {p : Path} {name : List Char} (h : p.fileName? = some name) :
    let trimmed := trimPieces p.body.reverse
    IsName name ∧ lastPiece trimmed = name
      ∧ p.parent? = some ⟨String.ofList (p.head ++ (trimPieces (dropPiece trimmed)).reverse)⟩ := by
  intro trimmed
  have hdefinition : p.popped
      = (component? (lastPiece trimmed)).map fun c => (p.head, dropPiece trimmed, c) := rfl
  unfold fileName? at h
  unfold parent?
  rw [hdefinition] at h ⊢
  cases hpiece : component? (lastPiece trimmed) with
  | none =>
      rw [hpiece] at h
      exact nomatch h
  | some c =>
      rw [hpiece] at h
      -- Of all components only a name is the name of a file.
      cases c with
      | name cs =>
          obtain rfl : cs = name := Option.some.inj h
          obtain rfl := component?_eq_name hpiece
          exact ⟨⟨hpiece, slash_notMem_lastPiece _⟩, rfl, rfl⟩
      | root => exact nomatch h
      | current => exact nomatch h
      | parent => exact nomatch h

/-- **A path with a file name enters it from its parent.** -/
theorem exists_parent {p : Path} {name : List Char} (h : p.fileName? = some name) :
    ∃ dir, p.parent? = some dir ∧ p.Enters dir name := by
  obtain ⟨hname, hlast, hparent⟩ := parent?_of_fileName? h
  refine ⟨_, hparent, ?_⟩
  -- What is left of the body is a beginning of it.
  have hstart : (trimPieces (dropPiece (trimPieces p.body.reverse))).reverse <+: p.body := by
    rw [← List.reverse_suffix, List.reverse_reverse]
    exact (trimPieces_suffix _).trans ((dropPiece_suffix _).trans (trimPieces_suffix _))
  have hdot : (trimPieces (dropPiece (trimPieces p.body.reverse))).reverse ≠ ['.'] :=
    fun hdot => trimPieces_ne_dot _ (List.reverse_eq_iff.mp hdot)
  obtain ⟨hhead, hbody⟩ := beginning hstart hdot
  obtain ⟨after, hafter, hwhole⟩ := walk_trimPieces p.body.reverse
  obtain ⟨before, hbefore, hdropped⟩ := walk_trimPieces (dropPiece (trimPieces p.body.reverse))
  refine ⟨hname, hhead.symm, before, after, List.forall_mem_append.mpr ⟨hbefore, hafter⟩, ?_⟩
  rw [List.reverse_reverse] at hwhole
  rw [steps_eq, steps_eq, hhead, hbody, hwhole, walk_reverse, hlast, hname.walk, hdropped]
  simp only [List.append_assoc, List.cons_append, List.nil_append]

/-! ## §5. Joining a name. -/

theorem IsName.isAbsolute {name : List Char} (h : IsName name) :
    Path.isAbsolute ⟨String.ofList name⟩ = false := by
  unfold Path.isAbsolute
  rw [String.toList_ofList, beq_eq_false_iff_ne]
  intro hhead
  exact h.2 (List.mem_of_mem_head? hhead)

/-- Behind a path a name stands after a slash. -/
theorem toList_join_name (dir : Path) {name : List Char} (hname : IsName name) :
    let joined := (dir.join ⟨String.ofList name⟩).text.toList
    (dir.text.toList = [] ∧ joined = name)
      ∨ (∃ cs, dir.text.toList = cs ++ ['/'] ∧ joined = cs ++ '/' :: name)
      ∨ (dir.text.toList ≠ [] ∧ joined = dir.text.toList ++ '/' :: name) := by
  unfold join
  rw [if_neg (by rw [hname.isAbsolute]; exact nofun)]
  -- The end of the directory tells whether a slash is missing.
  split
  · rename_i hend
    exact .inl ⟨List.getLast?_eq_none_iff.mp hend, String.toList_ofList⟩
  · rename_i hend
    obtain ⟨cs, hcs⟩ := List.getLast?_eq_some_iff.mp hend
    refine .inr (.inl ⟨cs, hcs, ?_⟩)
    show (dir.text ++ String.ofList name).toList = _
    rw [String.toList_append, String.toList_ofList, hcs, List.append_assoc]
    rfl
  · rename_i hend
    refine .inr (.inr ⟨?_, ?_⟩)
    · intro hnil
      rw [hnil] at hend
      exact nomatch hend
    · show (dir.text ++ "/" ++ String.ofList name).toList = _
      rw [String.toList_append, String.toList_append, List.append_assoc, String.toList_ofList,
        String.toList_ofList]
      rfl

theorem IsName.splitHead {name : List Char} (hname : IsName name) :
    splitHead name = ([], name) := by
  rw [Path.splitHead]
  · rintro rest rfl
    exact hname.2 List.mem_cons_self
  · rintro rfl
    exact nomatch hname.1
  · rintro rest rfl
    exact hname.2 (List.mem_cons_of_mem _ List.mem_cons_self)

/-- Behind a slash, a name is one more step. -/
theorem IsName.steps {name : List Char} (hname : IsName name) {p : Path} {front : List Char}
    (htext : p.text.toList = front ++ '/' :: name) : p.steps = Path.walk front ++ [name] := by
  show Path.walk p.text.toList = _
  rw [htext, walk_append_slash, hname.walk]

/-- **A name that is joined is entered**, with no dots around it. -/
theorem join_name (dir : Path) {name : List Char} (hname : IsName name) :
    (dir.join ⟨String.ofList name⟩).Enters dir name
      ∧ (dir.join ⟨String.ofList name⟩).steps = dir.steps ++ [name] := by
  have htexts := toList_join_name dir hname
  generalize dir.join ⟨String.ofList name⟩ = p at *
  have hboth : p.head = dir.head ∧ p.steps = dir.steps ++ [name] := by
    -- A name is joined in three ways: to nothing, behind a slash, or with a slash of its own.
    rcases htexts with ⟨hdir, htext⟩ | ⟨cs, hdir, htext⟩ | ⟨hdir, htext⟩
    · -- From the empty path the name is all there is.
      constructor
      · unfold head
        rw [htext, hdir, hname.splitHead]
        rfl
      · show walk p.text.toList = walk dir.text.toList ++ _
        rw [htext, hdir, hname.walk]
        rfl
    · -- The slash that is there only ends the last step.
      constructor
      · have hbehind : p.text.toList = dir.text.toList ++ name := by
          rw [htext, hdir, List.append_assoc]
          rfl
        unfold head
        rw [hbehind,
          splitHead_append (by simp [hdir]) (by simp [hdir, List.append_eq_singleton_iff])]
      · rw [hname.steps htext]
        show _ = walk dir.text.toList ++ _
        rw [hdir, walk_append_slash_nil]
    · constructor
      · unfold head
        rw [htext, splitHead_append hdir fun _ => rfl]
      · exact hname.steps htext
  obtain ⟨hhead, hsteps⟩ := hboth
  exact ⟨⟨hname, hhead, [], [], nofun, by rw [hsteps, List.append_nil]⟩, hsteps⟩

/-- A joined name ends the text. -/
theorem join_name_closed (dir : Path) {name : List Char} (hname : IsName name) :
    (dir.join ⟨String.ofList name⟩).text.isEmpty = false
      ∧ (dir.join ⟨String.ofList name⟩).endsOpen = false := by
  obtain ⟨front, htext⟩ : ∃ front,
      (dir.join ⟨String.ofList name⟩).text.toList = front ++ name := by
    rcases toList_join_name dir hname with ⟨-, htext⟩ | ⟨cs, -, htext⟩ | ⟨-, htext⟩
    · exact ⟨[], htext⟩
    · exact ⟨cs ++ ['/'], by rw [htext, List.append_assoc]; rfl⟩
    · exact ⟨dir.text.toList ++ ['/'], by rw [htext, List.append_assoc]; rfl⟩
  obtain ⟨last, hlast⟩ : ∃ c, name.getLast? = some c :=
    Option.isSome_iff_exists.mp (by simpa using hname.ne_nil)
  have hend : (front ++ name).getLast? = some last := by
    rw [List.getLast?_append, hlast]
    rfl
  constructor
  · rw [Bool.eq_false_iff, ne_eq, String.isEmpty_iff, ← String.toList_eq_nil_iff, htext]
    simp [hname.ne_nil]
  · unfold endsOpen
    rw [htext, hend, beq_eq_false_iff_ne]
    rintro heq
    obtain rfl := Option.some.inj heq
    exact hname.2 (List.mem_of_getLast? hlast)

/-- **A path with its file name replaced** enters the new name from the same parent. -/
theorem withFileName_of_fileName? {p : Path} {name : List Char} (h : p.fileName? = some name)
    {dir : Path} (hdir : p.parent? = some dir) (new : String) :
    p.withFileName new = dir.join ⟨new⟩ := by
  unfold withFileName
  rw [h, hdir]
  rfl

/-! ## §6. Paths of the same components. -/

/-- Trimming stops at a component, or with nothing left. -/
theorem trimPieces_stops (body : List Char) :
    trimPieces body = [] ∨ ∃ c, component? (lastPiece (trimPieces body)) = some c := by
  induction body using trimPieces.induct with
  | case1 =>
      rw [trimPieces]
      exact .inl rfl
  | case2 c body h =>
      rw [trimPieces, if_pos h]
      exact .inr (Option.isSome_iff_exists.mp h)
  | case3 c body h ih =>
      rw [trimPieces, if_neg h]
      exact ih

/-- What a body is trimmed to ends in its last component. -/
theorem getLast?_filterMap_walk (body : List Char) :
    ((walk body.reverse).filterMap component?).getLast?
      = component? (lastPiece (trimPieces body)) := by
  obtain ⟨dots, hdots, hwalk⟩ := walk_trimPieces body
  rw [hwalk, List.filterMap_append, filterMap_dots hdots, List.append_nil]
  rcases trimPieces_stops body with hnil | ⟨c, hc⟩
  · rw [hnil]
    rfl
  · have hne : lastPiece (trimPieces body) ≠ [] := by
      intro hnil
      rw [hnil] at hc
      exact nomatch hc
    rw [walk_reverse, walk_of_notMem (slash_notMem_lastPiece _) hne, List.filterMap_append,
      List.filterMap_cons_some hc, hc, List.filterMap_nil, List.getLast?_concat]

/-- **A path whose last component is a name has it for its file name.** -/
theorem fileName?_of_components {p : Path} {name : List Char}
    (h : p.components.getLast? = some (.name name)) : p.fileName? = some name := by
  have hdefinition : p.components
      = leading p.head ++ (walk p.body.reverse.reverse).filterMap component? := by
    rw [List.reverse_reverse, filterMap_walk]
    rfl
  have hhead : (leading p.head).getLast? ≠ some (.name name) := by
    unfold leading
    split <;> exact nofun
  rw [hdefinition, List.getLast?_append, getLast?_filterMap_walk] at h
  have hpopped : p.popped = (component? (lastPiece (trimPieces p.body.reverse))).map
      fun c => (p.head, dropPiece (trimPieces p.body.reverse), c) := rfl
  unfold fileName?
  rw [hpopped]
  cases hlast : component? (lastPiece (trimPieces p.body.reverse)) with
  | none =>
      rw [hlast] at h
      exact absurd h hhead
  | some c =>
      rw [hlast] at h
      obtain rfl : c = .name name := Option.some.inj h
      rfl

/-- The steps of a path that are more than a dot. -/
def moves (p : Path) : List (List Char) := p.steps.filter (· != ['.'])

/-- The step that a component was. -/
def Component.piece : Component → List Char
  | .root => []
  | .current => ['.']
  | .parent => ['.', '.']
  | .name cs => cs

/-- A component is spelled like its piece, and is no dot. -/
theorem piece_of_component? {piece : List Char} {c : Component} (h : component? piece = some c) :
    c.piece = piece ∧ piece ≠ ['.'] := by
  unfold component? at h
  split at h
  · exact nomatch h
  · exact nomatch h
  · obtain rfl := Option.some.inj h
    exact ⟨rfl, by decide⟩
  · rename_i hdot _
    obtain rfl := Option.some.inj h
    exact ⟨rfl, hdot⟩

/-- The components, spelled out, are the pieces without the dots. -/
theorem map_piece_filterMap {pieces : List (List Char)} (hne : ∀ piece ∈ pieces, piece ≠ []) :
    (pieces.filterMap component?).map Component.piece = pieces.filter (· != ['.']) := by
  induction pieces with
  | nil => rfl
  | cons piece pieces ih =>
      rw [List.forall_mem_cons] at hne
      cases hpiece : component? piece with
      | none =>
          have hdot : piece = ['.'] := by
            unfold component? at hpiece
            split at hpiece
            · exact absurd rfl hne.1
            · rfl
            · exact nomatch hpiece
            · exact nomatch hpiece
          rw [List.filterMap_cons_none hpiece, ih hne.2, hdot]
          rfl
      | some c =>
          obtain ⟨hc, hdot⟩ := piece_of_component? hpiece
          rw [List.filterMap_cons_some hpiece, List.map_cons, ih hne.2, hc,
            List.filter_cons_of_pos (by simpa using hdot)]

/-- **The components of a path** say whether it starts at the root… -/
theorem isAbsolute_iff {p : Path} : p.isAbsolute = true ↔ Component.root ∈ p.components := by
  have hsteps : Component.root ∉ p.steps.filterMap component? := by
    intro hmem
    obtain ⟨piece, -, hpiece⟩ := List.mem_filterMap.mp hmem
    obtain ⟨rfl, -⟩ := piece_of_component? hpiece
    exact nomatch hpiece
  rw [isAbsolute_eq, components_eq, List.mem_append, or_iff_left hsteps, beq_iff_eq]
  unfold leading
  split <;> simp_all

/-- … and which moves it makes. -/
theorem moves_eq (p : Path) :
    p.moves = (p.components.map Component.piece).filter fun piece =>
      piece != [] && piece != ['.'] := by
  have hne : ∀ piece ∈ p.steps, piece ≠ [] := by
    intro piece hpiece
    simpa using (List.mem_filter.mp hpiece).2
  have hhead : ((leading p.head).map Component.piece).filter
      (fun piece => piece != [] && piece != ['.']) = [] := by
    unfold leading
    split <;> rfl
  rw [components_eq, List.map_append, List.filter_append, hhead, List.nil_append,
    map_piece_filterMap hne, List.filter_filter]
  refine List.filter_congr fun piece hpiece => ?_
  have hfull : (piece != []) = true := by simpa using hne piece hpiece
  rw [hfull]
  simp

end GifEdit.Path
