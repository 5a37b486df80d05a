/-
  GifEdit.Proofs.Files.Places
  ───────────────────────────
  **SAVING A FILE CHANGES ONE PLACE.**

  Where a path leads in a tree, if it leads anywhere, can be told from its text: a name goes
  down, a dot stays and two dots go up (`place_of_follow`).  So paths read one file if they have
  one place, however they are written.  A tree does not tell what the directories above the
  working one are called, so a way out of it and in again by name is taken for a way elsewhere.

  A file is saved in two steps.  The directories around it are made where nothing was, which
  keeps every way and every file (`Grows`); then the file is put at the place of its path.  So
  any other path reads what it read before (`readText_after_store`).
-/
import GifEdit.Proofs.Files.Entries

namespace GifEdit

/-! ## §1. Places of paths. -/

/-- Where a step leads if it can be made. -/
def Place.enter (p : Place) (piece : List Char) : Place :=
  if piece = ['.'] then p
  else if piece = ['.', '.'] then p.parent
  else p.child piece

namespace Path

/-- Where a path leads if it leads anywhere.  Paths from the root and paths from the working
directory never lead to one place: a tree does not tell where the working directory is. -/
def place (path : Path) : Place := path.steps.foldl Place.enter path.origin

end Path

namespace Files

variable {fs fs' : Files} {p : Path}

/-- A step that can be made leads where its piece says. -/
theorem step_eq {place found : Place} {piece : List Char} (h : fs.step place piece = .ok found) :
    found = place.enter piece := by
  have hdirectory := node?_of_step h
  unfold step at h
  rw [hdirectory] at h
  unfold Place.enter
  dsimp only at h
  split_ifs at h ⊢ with hdot hup
  · exact (Except.ok.inj h).symm
  · exact (Except.ok.inj h).symm
  · exact (Except.ok.inj h).symm

theorem foldlM_step_eq {place found : Place} {pieces : List (List Char)}
    (h : pieces.foldlM fs.step place = .ok found) : found = pieces.foldl Place.enter place := by
  induction pieces generalizing place with
  | nil => exact (Except.ok.inj h).symm
  | cons piece pieces ih =>
      rw [List.foldlM_cons] at h
      obtain ⟨next, hnext, hrest⟩ := bind_eq_ok.mp h
      rw [List.foldl_cons, ← step_eq hnext]
      exact ih hrest

/-- **A path leads to its place**, in every tree in which it leads anywhere. -/
theorem place_of_follow {found : Place} (h : fs.follow p = .ok found) : found = p.place := by
  unfold follow at h
  obtain ⟨-, h⟩ := check_bind_eq_ok.mp h
  obtain ⟨reached, hreached, hend⟩ := bind_eq_ok.mp h
  rw [foldlM_step_eq hreached] at hend
  split at hend
  · exact step_dot hend
  · exact (Except.ok.inj hend).symm

/-! ## §2. Reading beside a change. -/

/-- A path that is read leads to its place, and something stands there. -/
theorem follow_of_read {content : List UInt8} (h : fs.read p = .ok content) :
    fs.follow p = .ok p.place ∧ fs.node? p.place ≠ none := by
  obtain ⟨place, hfollow⟩ := exists_follow_of_read h
  obtain rfl := place_of_follow hfollow
  refine ⟨hfollow, fun hnone => ?_⟩
  unfold read find at h
  rw [hfollow, ok_bind, hnone] at h
  exact nomatch h

/-- What is put at a place that is no directory does not change what is read elsewhere. -/
theorem read_put_of_ne {place : Place} {content : List UInt8} (node : Node)
    (hplace : fs.node? place ≠ some .directory) (hne : p.place ≠ place)
    (h : fs.read p = .ok content) : (fs.put place node).read p = .ok content := by
  obtain ⟨hfollow, -⟩ := follow_of_read h
  rw [read_congr hfollow (follow_put hplace node hfollow) (node?_put_of_ne hne node), h]

/-! ## §3. Making directories. -/

/-- `fs'` is what is left of `fs` after directories were made, each where nothing was. -/
inductive Grows (fs : Files) : Files → Prop where
  | refl : fs.Grows fs
  | made {fs' : Files} {place : Place} :
      fs.Grows fs' → fs'.node? place = none → fs.Grows (fs'.put place .directory)

theorem Grows.trans {fs'' : Files} (h : fs.Grows fs') (h' : fs'.Grows fs'') : fs.Grows fs'' := by
  induction h' with
  | refl => exact h
  | made _ hnone ih => exact .made ih hnone

/-- A directory is made only where nothing was. -/
theorem grows_of_makeDirectory (h : fs.makeDirectory p = .ok fs') : fs.Grows fs' := by
  unfold makeDirectory at h
  obtain ⟨⟨dir, name⟩, -, h⟩ := bind_eq_ok.mp h
  cases name with
  | none => exact nomatch h
  | some name =>
      obtain ⟨place, -, h⟩ := bind_eq_ok.mp h
      split at h
      · exact nomatch h
      · rename_i hnode
        obtain rfl := Except.ok.inj h
        exact .made .refl (Option.not_isSome_iff_eq_none.mp hnode)

/-- The directories on a way are made from the outside in. -/
theorem grows_of_makeLevels {levels : Nat} (h : fs.makeLevels levels p = .ok fs') :
    fs.Grows fs' := by
  induction levels generalizing fs fs' p with
  | zero =>
      obtain rfl := Except.ok.inj h
      exact .refl
  | succ levels ih =>
      unfold makeLevels at h
      split at h
      · obtain rfl := Except.ok.inj h
        exact .refl
      · extract_lets make at h
        -- One directory is made, or it is there already.
        have hmake {before made : Files} (hmade : make before = .ok made) :
            before.Grows made := by
          simp only [make] at hmade
          split at hmade
          · rename_i hnew
            exact grows_of_makeDirectory (hnew.trans hmade)
          · split at hmade
            · obtain rfl := Except.ok.inj hmade
              exact .refl
            · exact nomatch hmade
        split at h
        · rename_i hmade
          exact hmake (hmade.trans h)
        · split at h
          · obtain ⟨around, haround, hlast⟩ := bind_eq_ok.mp h
            exact (ih haround).trans (hmake hlast)
          · exact nomatch h

/-- **Making directories keeps every file.** -/
theorem Grows.read (h : fs.Grows fs') {content : List UInt8} (hread : fs.read p = .ok content) :
    fs'.read p = .ok content := by
  induction h with
  | refl => exact hread
  | @made before place _ hnone ih =>
      have hne : p.place ≠ place := by
        rintro rfl
        exact (follow_of_read ih).2 hnone
      exact read_put_of_ne _ (by rw [hnone]; nofun) hne ih

/-! ## §4. Saving. -/

/-- What a saved file leaves: perhaps more directories, and the file at its place. -/
theorem grows_of_store {ε : Type} {file : Saving ε} (h : file.store fs = .ok fs') :
    ∃ before, fs.Grows before ∧ before.node? file.path.place ≠ some .directory
      ∧ fs' = before.put file.path.place (.file file.content) := by
  obtain ⟨before, hbefore, hwrite⟩ := write_of_store h
  have hgrows : fs.Grows before := by
    rcases hbefore with rfl | ⟨dir, hmade⟩
    · exact .refl
    · exact grows_of_makeLevels hmade
  obtain ⟨place, hfollow, hplace, hput⟩ := follow_of_write hwrite
  obtain rfl := place_of_follow hfollow
  exact ⟨before, hgrows, hplace, hput⟩

/-- **Saving a file changes what is read at its place, and nowhere else.** -/
theorem read_after_store {ε : Type} {file : Saving ε} {old : List UInt8}
    (hread : fs.read p = .ok old) (h : file.store fs = .ok fs') :
    fs'.read p = .ok (if p.place = file.path.place then file.content else old) := by
  obtain ⟨before, hgrows, hplace, rfl⟩ := grows_of_store h
  have hbefore := hgrows.read hread
  split
  · rename_i hsame
    exact read_put_self (hsame ▸ (follow_of_read hbefore).1) hplace _
  · rename_i hne
    exact read_put_of_ne _ hplace hne hbefore

/-- The same of texts. -/
theorem readText_after_store {ε : Type} {path : Path} {text old : String}
    {refused : Path → SystemError → ε} (hread : fs.readText p = .ok old)
    (h : (Saving.ofText path text refused).store fs = .ok fs') :
    fs'.readText p = .ok (if p.place = path.place then text else old) := by
  obtain ⟨bytes, hbytes, htext⟩ := bind_eq_ok.mp hread
  have hafter := read_after_store hbytes h
  by_cases hsame : p.place = path.place
  · rw [if_pos hsame]
    exact readText_of_read (hafter.trans (congrArg Except.ok (if_pos hsame)))
  · rw [if_neg hsame]
    exact bind_eq_ok.mpr ⟨bytes, hafter.trans (congrArg Except.ok (if_neg hsame)), htext⟩

end Files
end GifEdit
