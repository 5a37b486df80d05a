/-
  GifEdit.Proofs.Files.Ways
  ─────────────────────────
  **WHERE PATHS LEAD, WHATEVER THE SYSTEM.**

  A system follows a path step by step, from the root or from a working directory.  What a
  name leads to is its own affair, links included; but a dot stays where it is, and only
  where a dot can be made can any step be made.  A tree of files is such a system
  (`Files.ways`, `follow_eq_ok_iff`).

  That much decides that dots do not matter on the way to a name (`walk_moves`), and so paths
  that enter one name from paths of the same components lead to one place (`leads_join`).  How
  long a text may be is not looked at here.
-/
import GifEdit.Proofs.Files.Saving
import GifEdit.Proofs.Text.Path

namespace GifEdit

/-- How a system makes steps between its places. -/
structure Ways where
  Place : Type
  root : Place
  step : Place → List Char → Except SystemError Place
  /-- A dot stays. -/
  dot : ∀ {p q : Place}, step p ['.'] = .ok q → q = p
  /-- Where a step can be made, a dot can. -/
  stay : ∀ {p q : Place} {piece : List Char}, step p piece = .ok q → step p ['.'] = .ok p

/-- The ways through a tree of files. -/
def Files.ways (fs : Files) : Ways where
  Place := Place
  root := .root
  step := fs.step
  dot := step_dot
  stay h := by
    unfold step
    rw [node?_of_step h]
    rfl

instance (fs : Files) : DecidableEq fs.ways.Place := inferInstanceAs (DecidableEq Place)

namespace Ways

variable {w : Ways}

/-- The steps of a text, one after the other. -/
def walk (w : Ways) (p : w.Place) (pieces : List (List Char)) : Except SystemError w.Place :=
  pieces.foldlM w.step p

/-- Where a path leads from the working directory `here`, if it leads anywhere; the empty one
does not. -/
def leads (w : Ways) (here : w.Place) (path : Path) : Except SystemError w.Place :=
  if path.text.isEmpty then .error .notFound
  else do
    let p ← w.walk (if path.isAbsolute then w.root else here) path.steps
    if path.endsOpen then w.step p ['.'] else return p

theorem walk_append {p q : w.Place} {front rest : List (List Char)} :
    w.walk p (front ++ rest) = .ok q ↔ ∃ r, w.walk p front = .ok r ∧ w.walk r rest = .ok q := by
  unfold walk
  rw [List.foldlM_append, bind_eq_ok]

theorem walk_cons {p q : w.Place} {piece : List Char} {rest : List (List Char)} :
    w.walk p (piece :: rest) = .ok q ↔ ∃ r, w.step p piece = .ok r ∧ w.walk r rest = .ok q := by
  unfold walk
  rw [List.foldlM_cons, bind_eq_ok]

theorem walk_nil {p q : w.Place} : w.walk p [] = .ok q ↔ q = p := by
  constructor
  · intro h
    exact (Except.ok.inj h).symm
  · rintro rfl
    rfl

/-- **Dots before a step change nothing.** -/
theorem walk_moves {p q : w.Place} {pieces : List (List Char)} {name : List Char} :
    w.walk p (pieces.filter (· != ['.']) ++ [name]) = .ok q
      ↔ w.walk p (pieces ++ [name]) = .ok q := by
  induction pieces generalizing p with
  | nil => rfl
  | cons piece pieces ih =>
      by_cases hdot : piece = ['.']
      · subst hdot
        rw [List.filter_cons_of_neg (by simp), ih, List.cons_append, walk_cons]
        constructor
        · intro h
          -- The step that is made next shows that the dot can be made.
          obtain ⟨next, rest, hnext⟩ : ∃ next rest, pieces ++ [name] = next :: rest :=
            List.exists_cons_of_ne_nil (by simp)
          obtain ⟨r, hr, -⟩ := walk_cons.mp (hnext ▸ h)
          exact ⟨p, w.stay hr, h⟩
        · rintro ⟨r, hr, h⟩
          rwa [w.dot hr] at h
      · rw [List.filter_cons_of_pos (by simpa using hdot), List.cons_append, List.cons_append,
          walk_cons, walk_cons]
        exact exists_congr fun r => and_congr_right fun _ => ih

/-- Dots behind a place change nothing. -/
theorem walk_dots {p q : w.Place} {dots : List (List Char)} (hdots : ∀ d ∈ dots, d = ['.'])
    (h : w.walk p dots = .ok q) : q = p := by
  induction dots with
  | nil => exact walk_nil.mp h
  | cons d dots ih =>
      rw [List.forall_mem_cons] at hdots
      obtain ⟨r, hr, hrest⟩ := walk_cons.mp h
      rw [hdots.1] at hr
      rw [w.dot hr] at hrest
      exact ih hdots.2 hrest

/-- **A path that enters a name makes the moves to where it is entered, and then the name.** -/
theorem walk_of_leads {path dir : Path} {name : List Char} (henters : path.Enters dir name)
    {here place : w.Place} (h : w.leads here path = .ok place) :
    w.walk (if dir.isAbsolute then w.root else here) (dir.moves ++ [name]) = .ok place := by
  obtain ⟨before, after, hdots, hsteps⟩ := henters.steps
  rw [List.forall_mem_append] at hdots
  unfold leads at h
  split at h
  · exact nomatch h
  · obtain ⟨reached, hreached, hend⟩ := bind_eq_ok.mp h
    have hplace : place = reached := by
      split at hend
      · exact w.dot hend
      · exact (Except.ok.inj hend).symm
    rw [Path.isAbsolute_eq, henters.head, ← Path.isAbsolute_eq, hsteps,
      List.append_cons, walk_append] at hreached
    obtain ⟨entry, hentry, hafter⟩ := hreached
    -- What stands before and behind the name are dots, which lead nowhere.
    have hbefore : before.filter (· != ['.']) = [] := by
      rw [List.filter_eq_nil_iff]
      intro d hd
      simp [hdots.1 d hd]
    rw [hplace, walk_dots hdots.2 hafter]
    rw [← walk_moves, List.filter_append, hbefore, List.append_nil] at hentry
    exact hentry

/-- **A name is entered from paths of the same components alike.** -/
theorem leads_join {path dir dir' : Path} {name : List Char} (henters : path.Enters dir name)
    (hsame : dir.components = dir'.components) {here place : w.Place}
    (h : w.leads here path = .ok place) :
    w.leads here (dir'.join ⟨String.ofList name⟩) = .ok place := by
  have hwalk := walk_of_leads henters h
  obtain ⟨hjoined, hsteps⟩ := Path.join_name dir' henters.isName
  have hmoves : dir.moves = dir'.moves := by rw [Path.moves_eq, Path.moves_eq, hsame]
  have habsolute : dir.isAbsolute = dir'.isAbsolute := by
    rw [Bool.eq_iff_iff, Path.isAbsolute_iff, Path.isAbsolute_iff, hsame]
  obtain ⟨hfull, hclosed⟩ := Path.join_name_closed dir' henters.isName
  rw [hmoves, habsolute, Path.moves, walk_moves, ← hsteps, Path.isAbsolute_eq, ← hjoined.head,
    ← Path.isAbsolute_eq] at hwalk
  unfold leads
  rw [if_neg (by simp [hfull]), hwalk, hclosed]
  rfl

end Ways

namespace Files

variable {fs : Files} {path : Path} {place : Place}

/-- **A tree of files follows its ways**, as long as the text is taken for a path. -/
theorem follow_eq_ok_iff : fs.follow path = .ok place
    ↔ path.check = .ok () ∧ fs.ways.leads Place.working path = .ok place := by
  unfold follow
  rw [check_bind_eq_ok]
  refine and_congr_right fun hcheck => ?_
  have hfull : path.text.isEmpty = false := by
    unfold Path.check at hcheck
    split_ifs at hcheck with _ hempty
    exact Bool.eq_false_iff.mpr hempty
  unfold Ways.leads
  rw [if_neg (by simp [hfull])]
  rfl

end Files
end GifEdit
