/-
  GifEdit.Proofs.Files.Saving
  ───────────────────────────
  **WHAT WAS WRITTEN IS READ.**

  A path is followed through directories only, and a file is never put in the place of one.
  So whatever is written leaves every way as it was (`step_put`, `follow_put`), and reading the
  same path ends at the file that was written.

  A text is written as its bytes and read as the text of the bytes.
-/
import GifEdit.Files.Saving
import GifEdit.Proofs.Fallible
import Mathlib.Data.List.Basic
import Mathlib.Tactic.SplitIfs

namespace GifEdit

/-! ## §1. Texts and bytes. -/

/-- What the loop has read by then is in front, backwards. -/
theorem toList_loop (bytes : ByteArray) (i : Nat) (before : List UInt8) :
    ByteArray.toList.loop bytes i before = before.reverse ++ bytes.data.toList.drop i := by
  induction hleft : bytes.size - i generalizing i before with
  | zero =>
      have hend : ¬ i < bytes.size := by omega
      have hdrop : bytes.data.toList.drop i = [] :=
        List.drop_eq_nil_of_le (Nat.le_of_not_lt hend)
      rw [ByteArray.toList.loop, if_neg hend, hdrop, List.append_nil]
  | succ left ih =>
      have hin : i < bytes.size := by omega
      have hlength : i < bytes.data.toList.length := hin
      have hget : bytes.get! i = bytes.data.toList[i] := getElem!_pos bytes.data i hin
      rw [ByteArray.toList.loop, if_pos hin, ih (i + 1) _ (by omega),
        List.drop_eq_getElem_cons hlength, hget, List.reverse_cons, List.append_assoc]
      rfl

/-- The bytes of a text are those of no other text. -/
theorem fromUTF8?_bytes (text : String) :
    String.fromUTF8? ⟨text.toUTF8.toList.toArray⟩ = some text := by
  have hlist : text.toUTF8.toList = text.toUTF8.data.toList := by
    rw [ByteArray.toList, toList_loop]
    rfl
  have hvalid : text.toUTF8.IsValidUTF8 := text.isValidUTF8
  rw [hlist, Array.toArray_toList, String.fromUTF8?, dif_pos hvalid]
  rfl

/-! ## §2. The way to a file. -/

namespace Files

variable {fs fs' : Files}

/-- Only what is at that place changes. -/
theorem node?_put_of_ne {p q : Place} (h : q ≠ p) (node : Node) :
    (fs.put p node).node? q = fs.node? q := by
  have hne : (p == q) = false := beq_false_of_ne (Ne.symm h)
  unfold node? put
  rw [List.find?_cons, hne]

theorem node?_put_self {p : Place} (h : fs.node? p ≠ some .directory) (node : Node) :
    (fs.put p node).node? p = some node := by
  have hnames : p.names.isEmpty = false := by
    rw [Bool.eq_false_iff]
    intro hempty
    refine h ?_
    unfold node?
    rw [if_pos hempty]
  unfold node? put
  rw [hnames, List.find?_cons, beq_self_eq_true]
  rfl

/-- A step is made from a directory. -/
theorem node?_of_step {p q : Place} {piece : List Char} (h : fs.step p piece = .ok q) :
    fs.node? p = some .directory := by
  unfold step at h
  split at h
  · exact nomatch h
  · assumption
  · exact nomatch h

/-- A step stays as it was when something is put where no directory is. -/
theorem step_put {place p q : Place} (hplace : fs.node? place ≠ some .directory) (node : Node)
    {piece : List Char} (h : fs.step p piece = .ok q) :
    (fs.put place node).step p piece = .ok q := by
  have hdirectory := node?_of_step h
  have hne : p ≠ place := by
    rintro rfl
    exact hplace hdirectory
  unfold step at h ⊢
  rw [node?_put_of_ne hne]
  exact h

/-- A way is still open after a file was put somewhere. -/
theorem foldlM_step_put {place p q : Place} (hplace : fs.node? place ≠ some .directory)
    (node : Node) {pieces : List (List Char)} (h : pieces.foldlM fs.step p = .ok q) :
    pieces.foldlM (fs.put place node).step p = .ok q := by
  induction pieces generalizing p with
  | nil => exact h
  | cons piece pieces ih =>
      rw [List.foldlM_cons] at h ⊢
      obtain ⟨next, hnext, hrest⟩ := bind_eq_ok.mp h
      exact bind_eq_ok.mpr ⟨next, step_put hplace node hnext, ih hrest⟩

/-- A way stays as it was when something is put where no directory is. -/
theorem follow_put {path : Path} {place found : Place}
    (hplace : fs.node? place ≠ some .directory) (node : Node)
    (h : fs.follow path = .ok found) : (fs.put place node).follow path = .ok found := by
  unfold follow at h ⊢
  obtain ⟨hcheck, h⟩ := check_bind_eq_ok.mp h
  obtain ⟨reached, hreached, hend⟩ := bind_eq_ok.mp h
  refine check_bind_eq_ok.mpr ⟨hcheck, bind_eq_ok.mpr
    ⟨reached, foldlM_step_put hplace node hreached, ?_⟩⟩
  by_cases hopen : path.endsOpen = true
  · rw [if_pos hopen] at hend ⊢
    exact step_put hplace node hend
  · rw [if_neg hopen] at hend ⊢
    exact hend

/-- A step in place leads nowhere else. -/
theorem step_dot {p q : Place} (h : fs.step p ['.'] = .ok q) : q = p := by
  have hdirectory := node?_of_step h
  unfold step at h
  rw [hdirectory] at h
  exact (Except.ok.inj h).symm

/-- The last step of a path starts where the steps before it lead. -/
theorem lastStep_eq_ok {path : Path} {dir : Place} {name : List Char}
    (h : fs.lastStep path = .ok (dir, some name)) :
    path.check = .ok () ∧ path.steps.dropLast.foldlM fs.step path.origin = .ok dir
      ∧ path.steps.getLast? = some name := by
  unfold lastStep at h
  obtain ⟨hcheck, hrest⟩ := check_bind_eq_ok.mp h
  obtain ⟨place, hplace, hrest⟩ := bind_eq_ok.mp hrest
  obtain ⟨same, hdot, hlast⟩ := bind_eq_ok.mp hrest
  obtain rfl := step_dot hdot
  refine ⟨hcheck, ?_⟩
  split at hlast
  · exact nomatch hlast
  · rename_i piece hpiece
    obtain ⟨rfl, hname⟩ := Prod.mk.inj (Except.ok.inj hlast)
    split_ifs at hname
    exact ⟨hplace, hpiece.trans hname⟩

/-- What was written stands where no directory was, behind the last step of the path. -/
theorem write_eq_ok {path : Path} {content : List UInt8} (h : fs.write path content = .ok fs') :
    ∃ dir place name, fs.lastStep path = .ok (dir, some name) ∧ path.endsOpen = false
      ∧ fs.step dir name = .ok place ∧ fs.node? place ≠ some .directory
      ∧ fs' = fs.put place (.file content) := by
  unfold write at h
  obtain ⟨⟨dir, name⟩, hlast, h⟩ := bind_eq_ok.mp h
  cases name with
  | none => exact nomatch h
  | some name =>
      -- A path with a slash at its end is that of a directory.
      cases hopen : path.endsOpen with
      | true =>
          simp only [hopen] at h
          exact nomatch h
      | false =>
          simp only [hopen] at h
          obtain ⟨place, hstep, h⟩ := bind_eq_ok.mp h
          refine ⟨dir, place, name, hlast, rfl, hstep, ?_⟩
          split at h
          · exact nomatch h
          · rename_i hnode
            exact ⟨hnode, (Except.ok.inj h).symm⟩

/-- **A path that is written leads to what was put there.** -/
theorem follow_of_write {path : Path} {content : List UInt8}
    (h : fs.write path content = .ok fs') :
    ∃ place, fs.follow path = .ok place ∧ fs.node? place ≠ some .directory
      ∧ fs' = fs.put place (.file content) := by
  obtain ⟨dir, place, name, hlast, hopen, hstep, hplace, hput⟩ := write_eq_ok h
  obtain ⟨hcheck, hdir, hname⟩ := lastStep_eq_ok hlast
  have hsteps : path.steps = path.steps.dropLast ++ [name] :=
    (List.dropLast_append_getLast? name hname).symm
  refine ⟨place, ?_, hplace, hput⟩
  unfold follow
  refine check_bind_eq_ok.mpr ⟨hcheck, ?_⟩
  rw [hsteps, List.foldlM_append, hopen, hdir, ok_bind, List.foldlM_cons, hstep]
  rfl

/-- A file that stands where a path leads is read. -/
theorem read_put_self {path : Path} {place : Place} (hfollow : fs.follow path = .ok place)
    (hplace : fs.node? place ≠ some .directory) (content : List UInt8) :
    (fs.put place (.file content)).read path = .ok content := by
  unfold read find
  rw [follow_put hplace _ hfollow, ok_bind, node?_put_self hplace]
  rfl

/-- **A file that was written is read.** -/
theorem read_of_write {path : Path} {content : List UInt8}
    (h : fs.write path content = .ok fs') : fs'.read path = .ok content := by
  obtain ⟨place, hfollow, hplace, rfl⟩ := follow_of_write h
  exact read_put_self hfollow hplace content

/-- A file is saved by writing it, perhaps after directories were made. -/
theorem write_of_store {ε : Type} {file : Saving ε} (h : file.store fs = .ok fs') :
    ∃ before, (before = fs ∨ ∃ dir, fs.makeDirectories dir = .ok before)
      ∧ before.write file.path file.content = .ok fs' := by
  unfold Saving.store at h
  split at h
  · rename_i dir hdir
    obtain ⟨before, hmade, hwrite⟩ := bind_eq_ok.mp h
    exact ⟨before, .inr ⟨dir, mapError_eq_ok.mp hmade⟩, mapError_eq_ok.mp hwrite⟩
  · obtain ⟨before, hsame, hwrite⟩ := bind_eq_ok.mp h
    exact ⟨before, .inl (Except.ok.inj hsame).symm, mapError_eq_ok.mp hwrite⟩

/-- Bytes of a text are read as the text. -/
theorem readText_of_read {path : Path} {text : String}
    (h : fs.read path = .ok text.toUTF8.toList) : fs.readText path = .ok text := by
  unfold readText
  rw [h, ok_bind, fromUTF8?_bytes]
  rfl

/-- **A text that was saved is read.** -/
theorem readText_of_store {ε : Type} {path : Path} {text : String}
    {refused : Path → SystemError → ε} (h : (Saving.ofText path text refused).store fs = .ok fs') :
    fs'.readText path = .ok text := by
  obtain ⟨before, -, hwrite⟩ := write_of_store h
  exact readText_of_read (read_of_write hwrite)

end Files

end GifEdit
