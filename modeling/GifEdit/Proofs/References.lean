/-
  GifEdit.Proofs.References
  ─────────────────────────
  **HOW A DOCUMENT FINDS ITS CLIP.**

  What a document stores of its clip's path depends on where both lie:

      one directory    the bare name, which is looked for beside the document
      two directories  the canonical path, which is absolute and leads there from anywhere

  Which case it is, is decided by comparing components when the document is written, and by
  whether the stored path is absolute when it is read.  The two agree: a stored path leads
  where the clip's own path leads, and a bare name follows the document into any directory
  (`stored_reference_resolves`).
-/
import GifEdit.Command.Authoring
import GifEdit.Proofs.Files.Ways

namespace GifEdit

variable {α : Type}

/-! ## §1. Which path is stored. -/

namespace Path

/-- The directory that a path is compared by: its parent, or the empty path. -/
def around (p : Path) : Path := p.parent?.getD ⟨""⟩

theorem same_iff {p q : Path} : p.same q = true ↔ p.components = q.components := by
  unfold same
  exact beq_iff_eq

/-- A path with a file name enters it from the directory around it. -/
theorem enters_around {p : Path} {name : List Char} (h : p.fileName? = some name) :
    p.Enters p.around name := by
  obtain ⟨dir, hdir, henters⟩ := exists_parent h
  unfold around
  rwa [hdir]

/-- **A reference is the bare name** of a clip beside the document… -/
theorem referenceFrom_of_same {source document : Path} {name : List Char}
    (hname : source.fileName? = some name)
    (hsame : source.around.components = document.around.components) (canonical : Option Path) :
    source.referenceFrom document canonical = ⟨String.ofList name⟩ := by
  unfold referenceFrom
  rw [hname]
  exact if_pos (same_iff.mpr hsame)

/-- … and the canonical path of any other. -/
theorem referenceFrom_of_canonical {source document q : Path}
    (h : ¬∃ name, source.fileName? = some name
      ∧ source.around.components = document.around.components) :
    source.referenceFrom document (some q) = q := by
  unfold referenceFrom
  cases hname : source.fileName? with
  | none => rfl
  | some name => exact if_neg fun hsame => h ⟨name, hname, same_iff.mp hsame⟩

end Path

/-! ## §2. Which path is found. -/

namespace Document

/-- A bare name is looked for in the directory around the document. -/
theorem resolveSource_of_name {d : Document α} {name : List Char} (hname : Path.IsName name)
    (hstored : d.sourcePath = ⟨String.ofList name⟩) (document : Path) :
    d.resolveSource document = document.around.join ⟨String.ofList name⟩ := by
  unfold resolveSource Path.around
  rw [hstored, hname.isAbsolute]
  cases document.parent? with
  | some dir => rfl
  | none =>
      show _ = Path.join ⟨""⟩ ⟨String.ofList name⟩
      unfold Path.join
      rw [hname.isAbsolute]
      rfl

theorem resolveSource_of_isAbsolute {d : Document α} (h : d.sourcePath.isAbsolute = true)
    (document : Path) : d.resolveSource document = d.sourcePath :=
  if_pos h

/-- **STORED REFERENCES RESOLVE BACK.**  Let a document store what was made of its clip's path
for the path it was written to.  Then, on every system, the path that is found leads where the
clip's path leads, if the canonical path is absolute and leads there as well; it does not
matter how either path is written.  And if both paths have the same parent, then in whatever
directory the document is put, under its name, the path that is found is that of the clip's
name beside it, and leads wherever that path leads. -/
theorem stored_reference_resolves (d : Document α) (source document : Path)
    (canonical : Option Path)
    (hstored : d.sourcePath = source.referenceFrom document canonical) :
    (∀ (w : Ways) (here place : w.Place), w.leads here source = .ok place →
        (∃ q, canonical = some q ∧ q.isAbsolute = true ∧ w.leads here q = .ok place) →
        w.leads here (d.resolveSource document) = .ok place)
      ∧ ∀ name docName, source.fileName? = some name → document.fileName? = some docName →
        source.around.same document.around = true →
        ∀ dir : Path,
          let moved := dir.join ⟨String.ofList docName⟩
          let beside := dir.join ⟨String.ofList name⟩
          (d.resolveSource moved).same beside = true
            ∧ ∀ (w : Ways) (here place : w.Place), w.leads here beside = .ok place →
              w.leads here (d.resolveSource moved) = .ok place := by
  constructor
  · intro w here place hsource hcanonical
    obtain ⟨q, rfl, habsolute, hq⟩ := hcanonical
    by_cases hcase : ∃ name, source.fileName? = some name
        ∧ source.around.components = document.around.components
    · obtain ⟨name, hname, hsame⟩ := hcase
      have henters := Path.enters_around hname
      rw [Path.referenceFrom_of_same hname hsame] at hstored
      rw [resolveSource_of_name henters.isName hstored]
      exact Ways.leads_join henters hsame hsource
    · rw [Path.referenceFrom_of_canonical hcase] at hstored
      rw [resolveSource_of_isAbsolute (hstored ▸ habsolute), hstored]
      exact hq
  · intro name docName hname hdocName hsame dir moved beside
    have henters := Path.enters_around hname
    have hdocument := Path.enters_around hdocName
    rw [Path.referenceFrom_of_same hname (Path.same_iff.mp hsame)] at hstored
    rw [resolveSource_of_name henters.isName hstored]
    -- The moved document is in the directory it was put into.
    have hmoved : moved.Enters dir docName := (Path.join_name dir hdocument.isName).1
    have hmovedName : moved.fileName? = some docName := by
      refine Path.fileName?_of_components ?_
      rw [hmoved.components, List.getLast?_concat]
    have haround : moved.around.components = dir.components := by
      have hboth := (Path.enters_around hmovedName).components.symm.trans hmoved.components
      exact List.append_cancel_right hboth
    have hbeside : beside.Enters dir name := (Path.join_name dir henters.isName).1
    constructor
    · rw [Path.same_iff, (Path.join_name _ henters.isName).1.components, hbeside.components,
        haround]
    · intro w here place hplace
      exact Ways.leads_join hbeside haround.symm hplace

/-- A clip in another directory than its document, and one in the same, written differently,
whose directory is moved. -/
theorem stored_reference_resolves_moved :
    let fs : Files :=
      { entries := [(⟨none, ["clip.mp4".toList, "in".toList, "work".toList]⟩, .file [71, 73, 70]),
          (⟨none, ["in".toList, "work".toList]⟩, .directory),
          (⟨none, ["out".toList, "work".toList]⟩, .directory),
          (⟨none, ["work".toList]⟩, .directory),
          (⟨none, ["clip.mp4".toList, "new".toList]⟩, .file [71, 73, 70]),
          (⟨none, ["new".toList]⟩, .directory)] }
    let here : Place := ⟨none, ["work".toList]⟩
    let document (sourcePath : Path) : Document Float :=
      .ofEdit ⟨0, 0⟩ sourcePath
        ⟨⟨"clip.mp4", 10.0, 1920, 1080⟩, ⟨0.0, 10.0⟩, none, ⟨none, none⟩, .standard, .standard⟩
    let apart := document (Path.referenceFrom ⟨"in/clip.mp4"⟩ ⟨"out/edit.togif.json"⟩
      (some ⟨"/work/in/clip.mp4"⟩))
    let together := document (Path.referenceFrom ⟨"in//clip.mp4"⟩ ⟨"in/./edit.togif.json"⟩
      (some ⟨"/work/in/clip.mp4"⟩))
    fs.ways.leads here (apart.resolveSource ⟨"out/edit.togif.json"⟩)
        = .ok ⟨none, ["clip.mp4".toList, "in".toList, "work".toList]⟩
      ∧ fs.ways.leads here (together.resolveSource ⟨"in/./edit.togif.json"⟩)
        = .ok ⟨none, ["clip.mp4".toList, "in".toList, "work".toList]⟩
      ∧ fs.ways.leads here (together.resolveSource ⟨"/new/./edit.togif.json"⟩)
        = .ok ⟨none, ["clip.mp4".toList, "new".toList]⟩ := by
  intro fs here document apart together
  have hmoved := (stored_reference_resolves together _ _ _ rfl).2 "clip.mp4".toList
    "edit.togif.json".toList (by decide +kernel) (by decide +kernel) (by decide +kernel) ⟨"/new/."⟩
  refine ⟨?_, ?_, hmoved.2 fs.ways here _ (by decide +kernel)⟩
  · exact (stored_reference_resolves apart _ _ _ rfl).1 fs.ways here _ (by decide +kernel)
      ⟨_, rfl, by decide +kernel, by decide +kernel⟩
  · exact (stored_reference_resolves together _ _ _ rfl).1 fs.ways here _ (by decide +kernel)
      ⟨_, rfl, by decide +kernel, by decide +kernel⟩

end Document
end GifEdit
