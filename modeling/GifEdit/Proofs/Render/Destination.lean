/-
  GifEdit.Proofs.Render.Destination
  ─────────────────────────────────
  **WHERE AN EXPORT GOES WHEN NOBODY SAYS SO.**

  The GIF is named after its source and stands beside it: both paths enter a name from the same
  directory, and the names are equal if the source is named as a GIF already.

      clips/a.final.mp4    →  clips/a.final.gif
      clips/a              →  clips/a.gif
      clips/a.gif          →  clips/a.gif

  Nothing compares the two.  So an export spares the clip that it was made from exactly if the
  name of the clip does not end as that of a GIF.

  Main results: `export_beside_source_spares_it_iff` and, for a clip that is lost,
  `export_beside_gif_replaces_it`.
-/
import GifEdit.Render.Export
import GifEdit.Scalar.Exact
import GifEdit.Proofs.Files.Entries

namespace GifEdit

variable {name : List Char}

/-! ## §1. The name of a GIF. -/

/-- The name of a GIF is the stem of a name with the extension behind it. -/
theorem gifName_eq (name : List Char) :
    gifName (String.ofList name) = String.ofList (nameStem name ++ ".gif".toList) := by
  unfold gifName
  rw [String.toList_ofList, String.ofList_append]
  rfl

/-- A stem is the beginning of its name. -/
theorem nameStem_begins (name : List Char) : nameStem name <+: name := by
  unfold nameStem
  dsimp only
  split
  · exact List.prefix_rfl
  · split
    · exact List.prefix_rfl
    · rename_i c before hdrop
      have hsuffix : before <:+ name.reverse :=
        (List.suffix_cons c before).trans (hdrop ▸ List.dropWhile_suffix _)
      rw [← List.reverse_prefix, List.reverse_reverse] at hsuffix
      exact hsuffix

/-- The extension of a GIF is taken off and put back. -/
theorem nameStem_gif (front : List Char) : nameStem (front ++ ".gif".toList) = front := by
  unfold nameStem
  simp

/-- A name is its own GIF if it has that extension. -/
theorem gif_eq_iff : nameStem name ++ ".gif".toList = name ↔ ".gif".toList <:+ name := by
  constructor
  · intro h
    exact ⟨nameStem name, h⟩
  · rintro ⟨front, rfl⟩
    rw [nameStem_gif]

/-- The name of a GIF is a name. -/
theorem isName_gif (hname : Path.IsName name) :
    Path.IsName (nameStem name ++ ".gif".toList) := by
  constructor
  · refine Path.component?_of_length ?_
    rw [List.length_append]
    exact Nat.lt_of_lt_of_le (by decide) (Nat.le_add_left _ _)
  · rw [List.mem_append, not_or]
    exact ⟨fun hmem => hname.2 ((nameStem_begins name).mem hmem), by decide⟩

/-! ## §2. The default output. -/

namespace Path

variable {source dir : Path}

/-- The default output is in the directory of the source. -/
theorem gifPath_eq (hname : source.fileName? = some name) (hdir : source.parent? = some dir) :
    source.gifPath = dir.join ⟨String.ofList (nameStem name ++ ".gif".toList)⟩ := by
  unfold gifPath
  rw [hname, Option.getD_some, gifName_eq, withFileName_of_fileName? hname hdir]

/-- **The default output stands beside the source.** -/
theorem gifPath_beside (hname : source.fileName? = some name) :
    ∃ dir, source.parent? = some dir ∧ source.Enters dir name
      ∧ source.gifPath.Enters dir (nameStem name ++ ".gif".toList)
      ∧ source.gifPath.steps = dir.steps ++ [nameStem name ++ ".gif".toList] := by
  obtain ⟨dir, hdir, hsource⟩ := exists_parent hname
  obtain ⟨houtput, hsteps⟩ := join_name dir (isName_gif hsource.isName)
  rw [← gifPath_eq hname hdir] at houtput hsteps
  exact ⟨dir, hdir, hsource, houtput, hsteps⟩

/-- **The default output is the source** exactly if the source is named as a GIF. -/
theorem gifPath_same_iff (hname : source.fileName? = some name) :
    source.gifPath.same source = true ↔ ".gif".toList <:+ name := by
  obtain ⟨dir, -, hsource, houtput, -⟩ := gifPath_beside hname
  unfold same
  rw [hsource.components, houtput.components, beq_iff_eq, List.append_cancel_left_eq,
    List.singleton_inj, Component.name.injEq, gif_eq_iff]

end Path

/-! ## §3. Exports. -/

variable {α : Type} [Scalar α]

/-- An export that succeeds ends at its output. -/
theorem exportWith_result {backend : Backend α} {job : ExportJob α} {scene : ExportScene}
    {path : Path} (h : (exportWith backend job scene).result = .ok path) :
    path = job.output := by
  unfold exportWith at h
  split at h
  · exact nomatch h
  · dsimp only at h
    split at h
    · exact nomatch h
    · split at h
      · exact nomatch h
      · split at h
        · exact (Except.ok.inj h).symm
        · exact nomatch h

/-- **AN EXPORT SPARES ITS SOURCE UNLESS THE SOURCE IS NAMED AS A GIF**: the job that writes
beside its source has an output in the directory of the source, with the name of the source
but for its extension, which is `.gif`.  The two are one path exactly if the name of the source
ends so already.  An export that succeeds ends at this output.  In any tree of files in which a
clip is read from the source, a file that is written there leaves the clip as it was, or it
replaces it if the name of the source ends so. -/
theorem export_beside_source_spares_it_iff (source : Path) (name : List Char)
    (edit : Specification α) (engine : Engine) (hname : source.fileName? = some name) :
    let job := ExportJob.besideSource source edit engine
    (∃ dir, job.source.components = dir ++ [.name name]
        ∧ job.output.components = dir ++ [.name (nameStem name ++ ".gif".toList)])
      ∧ (job.output.same job.source = false ↔ ¬ ".gif".toList <:+ name)
      ∧ (∀ scene version answers path,
          (exportJob job scene version answers).result = .ok path → path = job.output)
      ∧ ∀ (fs fs' : Files) (clip gif : List UInt8), fs.read job.source = .ok clip →
          fs.write job.output gif = .ok fs' →
          fs'.read job.source = .ok (if ".gif".toList <:+ name then gif else clip) := by
  intro job
  obtain ⟨dir, -, hsource, houtput, hsteps⟩ := Path.gifPath_beside hname
  refine ⟨⟨_, hsource.components, houtput.components⟩, ?_, ?_, ?_⟩
  · rw [← Bool.not_eq_true, not_iff_not]
    exact Path.gifPath_same_iff hname
  · intro scene version answers path hresult
    exact exportWith_result hresult
  · intro fs fs' clip gif hread hwrite
    simp only [← gif_eq_iff]
    exact Files.read_of_write_entry hsource houtput hsteps hread hwrite

/-- A clip in a directory, by a path with dots, and an old GIF beside it. -/
theorem export_beside_source_spares_it_iff_dotted :
    let s : Specification Exact :=
      ⟨⟨"a.final.mp4", 10, 1920, 1080⟩, ⟨1, 9⟩, none, ⟨none, none⟩, .standard, .standard⟩
    let source : Path := ⟨"./clips//./a.final.mp4"⟩
    let job := ExportJob.besideSource source s {}
    let clips : Place := Place.working.child "clips".toList
    let fs : Files := ⟨[(clips, .directory), (clips.child "a.final.mp4".toList, .file [1, 2, 3]),
      (clips.child "a.final.gif".toList, .file [4])]⟩
    let fs' := fs.put (clips.child "a.final.gif".toList) (.file [5, 6])
    source.fileName? = some "a.final.mp4".toList
      ∧ job.output = ⟨"./clips/a.final.gif"⟩ ∧ job.output.same job.source = false
      ∧ fs.read job.source = .ok [1, 2, 3] ∧ fs.write job.output [5, 6] = .ok fs'
      ∧ fs'.read job.source = .ok [1, 2, 3] := by
  intro s source job clips fs fs'
  have hname : source.fileName? = some "a.final.mp4".toList := by decide +kernel
  have hread : fs.read job.source = .ok [1, 2, 3] := by decide +kernel
  have hwrite : fs.write job.output [5, 6] = .ok fs' := by decide +kernel
  obtain ⟨-, hdiffer, -, hspared⟩ := export_beside_source_spares_it_iff source _ s {} hname
  have hmp4 : ¬ ".gif".toList <:+ "a.final.mp4".toList := by decide
  have hafter := hspared fs fs' [1, 2, 3] [5, 6] hread hwrite
  rw [if_neg hmp4] at hafter
  exact ⟨hname, by decide +kernel, hdiffer.mpr hmp4, hread, hwrite, hafter⟩

/-- **A clip that is lost**: it is named as a GIF, so the export of an edit of it ends at the
clip, with the render in its place. -/
theorem export_beside_gif_replaces_it :
    let s : Specification Exact :=
      ⟨⟨"clip.gif", 10, 1920, 1080⟩, ⟨0, 10⟩, none, ⟨none, none⟩, .standard, .standard⟩
    let job := ExportJob.besideSource ⟨"clip.gif"⟩ s {}
    let run : EncoderRun Exact :=
      { run := { printed := "progress=end\n" }, written := some "GIF89a new", elapsed := fun _ => 0 }
    let exported := exportJob job { sourceExists := true, target := some "GIF89a old" } (.ok {})
      { scratch := .ok ⟨"scratch"⟩, run := .ok run }
    let clip := Place.working.child "clip.gif".toList
    let fs : Files := ⟨[(clip, .file "GIF89a old".toUTF8.toList)]⟩
    let fs' := fs.put clip (.file "GIF89a new".toUTF8.toList)
    job.source.fileName? = some "clip.gif".toList ∧ job.output = job.source
      ∧ exported.result = .ok job.source ∧ exported.target = some "GIF89a new"
      ∧ fs.readText job.source = .ok "GIF89a old"
      ∧ fs.write job.output "GIF89a new".toUTF8.toList = .ok fs'
      ∧ fs'.readText job.source = .ok "GIF89a new" := by
  decide +kernel

end GifEdit
