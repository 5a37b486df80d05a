/-
  GifEdit.Proofs.Files.Entries
  ────────────────────────────
  **FILES THAT STAND SIDE BY SIDE.**

  A path that enters a name leads to the entry of that name in the directory that it enters
  it from (`follow_enters`), with or without dots on the way.  So a file that is written is what
  a path to the same entry reads afterwards, and a path to another entry of the directory reads
  what it read before (`read_of_write_entry`).
-/
import GifEdit.Proofs.Files.Ways

namespace GifEdit.Files

variable {fs fs' : Files} {p q dir : Path} {name new : List Char}

/-! ## §1. Ways. -/

/-- A name leads to an entry. -/
theorem step_name (hname : Path.IsName name) {place found : Place}
    (h : fs.step place name = .ok found) : found = place.child name := by
  have hdot : name ≠ ['.'] := by
    rintro rfl
    exact nomatch hname.1
  have hdots : name ≠ ['.', '.'] := by
    rintro rfl
    exact nomatch hname.1
  have hdirectory := node?_of_step h
  unfold step at h
  rw [hdirectory] at h
  simp only [hdot, hdots, if_false] at h
  split at h
  · exact nomatch h
  · exact (Except.ok.inj h).symm

/-- **A path that enters a name leads to the entry of that name.** -/
theorem follow_enters (henters : p.Enters dir name) {found : Place}
    (h : fs.follow p = .ok found) :
    ∃ place, dir.steps.foldlM fs.step dir.origin = .ok place ∧ found = place.child name := by
  obtain ⟨-, hleads⟩ := follow_eq_ok_iff.mp h
  have hwalk := Ways.walk_moves.mp (Ways.walk_of_leads henters hleads)
  obtain ⟨place, hplace, hentry⟩ := Ways.walk_append.mp hwalk
  obtain ⟨entry, hstep, hend⟩ := Ways.walk_cons.mp hentry
  refine ⟨place, hplace, ?_⟩
  rw [Ways.walk_nil.mp hend]
  exact step_name henters.isName hstep

/-! ## §2. Reading and writing. -/

/-- A path that is read leads somewhere. -/
theorem exists_follow_of_read {content : List UInt8} (h : fs.read p = .ok content) :
    ∃ place, fs.follow p = .ok place := by
  unfold read at h
  obtain ⟨_, hfind, -⟩ := bind_eq_ok.mp h
  unfold find at hfind
  obtain ⟨place, hfollow, -⟩ := bind_eq_ok.mp hfind
  exact ⟨place, hfollow⟩

/-- What stands where a path leads decides what it reads. -/
theorem read_congr {place : Place} (h : fs.follow p = .ok place) (h' : fs'.follow q = .ok place)
    (hnode : fs'.node? place = fs.node? place) : fs'.read q = fs.read p := by
  unfold read find
  rw [h, h', ok_bind, ok_bind, hnode]

/-- **A path whose last step is a name writes the entry of that name.** -/
theorem write_enters (henters : q.Enters dir name) (hsteps : q.steps = dir.steps ++ [name])
    {content : List UInt8} (h : fs.write q content = .ok fs') :
    ∃ place, dir.steps.foldlM fs.step dir.origin = .ok place
      ∧ fs.node? (place.child name) ≠ some .directory
      ∧ fs' = fs.put (place.child name) (.file content) := by
  obtain ⟨place, entry, last, hlast, -, hstep, hentry, hput⟩ := write_eq_ok h
  obtain ⟨-, hplace, hend⟩ := lastStep_eq_ok hlast
  rw [hsteps, henters.origin, List.dropLast_concat] at hplace
  rw [hsteps, List.getLast?_concat] at hend
  obtain rfl := Option.some.inj hend
  obtain rfl := step_name henters.isName hstep
  exact ⟨place, hplace, hentry, hput⟩

/-- **WRITING A FILE REPLACES THE ENTRY OF ITS NAME AND NO OTHER**: after a file is written into
a directory, a path that reads an entry of this directory reads the new bytes if the names are
equal, and otherwise what it read before. -/
theorem read_of_write_entry (hp : p.Enters dir name) (hq : q.Enters dir new)
    (hsteps : q.steps = dir.steps ++ [new]) {old content : List UInt8}
    (hread : fs.read p = .ok old) (hwrite : fs.write q content = .ok fs') :
    fs'.read p = .ok (if new = name then content else old) := by
  obtain ⟨found, hfollow⟩ := exists_follow_of_read hread
  obtain ⟨place, hplace, hfound⟩ := follow_enters hp hfollow
  obtain ⟨place', hplace', hentry, rfl⟩ := write_enters hq hsteps hwrite
  -- Both names are entered from one place.
  obtain rfl : place' = place := Except.ok.inj (hplace'.symm.trans hplace)
  have hafter := follow_put hentry (.file content) hfollow
  by_cases hsame : new = name
  · subst hsame
    rw [if_pos rfl]
    exact read_put_self (hfound ▸ hfollow) hentry content
  · rw [if_neg hsame]
    have hne : found ≠ place'.child new := by
      rw [hfound]
      intro heq
      exact hsame (List.cons.inj (Place.mk.inj heq).2).1.symm
    rw [read_congr hfollow hafter (node?_put_of_ne hne _), hread]

end GifEdit.Files
