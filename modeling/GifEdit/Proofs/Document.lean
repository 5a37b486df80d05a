/-
  GifEdit.Proofs.Document
  ───────────────────────
  **DOCUMENTS COME BACK, AND ONLY SOUND ONES GET IN.**

  A document file is written by this library or by hand.  Of the first kind nothing is
  lost: the bytes that saving writes are loaded as the document that was saved, and so is
  the compact text (`saved_document_loads`).  Printing of numbers and of timestamps is not
  looked into; that each of them reads back is asked of the document.

  Of the second kind nothing is taken on trust: an edit that any text is read as is valid
  (`decoded_edit_is_valid`), through whatever keys, order or form it was written.  Its crop
  may reach over a side of the frame only if that side is the largest word, where the far
  edges of a region cannot be told from it; there it may indeed (`saturated_crop_is_read`).
-/
import GifEdit.Document
import GifEdit.Proofs.Edit.Codec
import GifEdit.Proofs.Files.Saving

namespace GifEdit

open Json (Carries ReadsBack Schema)

variable {α : Type} [Scalar α] [Legible α]

/-! ## §1. Documents are written as they are. -/

/-- The timestamp is read back from its own text. -/
def Timestamp.ReadsBack (t : Timestamp) : Prop := ofChars t.text.toList = .ok t

instance (t : Timestamp) : Decidable t.ReadsBack :=
  inferInstanceAs (Decidable (Timestamp.ofChars t.text.toList = .ok t))

namespace Document

theorem decodeTime_text {t : Timestamp} (h : t.ReadsBack) :
    decodeTime (.string t.text) = .ok t := by
  unfold Timestamp.ReadsBack at h
  simp only [decodeTime, Json.decodeText, ok_bind, h]

/-- **A document carries itself**, if its edit does and its timestamps read back. -/
theorem carries {d : Document α} (hedit : Carries Specification.decode d.edit.toJson d.edit)
    (hcreated : d.createdAt.ReadsBack) (hmodified : d.modifiedAt.ReadsBack) :
    Carries decode d.toJson d := by
  refine Schema.carries_record .text ⟨some d.version, some d.createdAt, some d.modifiedAt,
    some d.sourcePath, some d.edit⟩ rfl (by simp [schema]) (by simp [hedit.readable]) ?_ rfl
  simp [schema, Json.decodeString, Json.decodeText, decodeTime_text hcreated,
    decodeTime_text hmodified, hedit.decoded]

/-- **What is saved is loaded.**  Wherever a document was saved, the file that was written
is loaded as that document; so is its text, and its compact text is decoded to it as well. -/
theorem saved_document_loads [LawfulScalar α] (d : Document α) {source : Clip α}
    {trim : TrimRange α} {crop : Option Region} {zoom : ZoomWindow α} {settings : ExportSettings}
    {background : Background α}
    (hedit : Specification.ofParts source trim crop zoom settings background = .ok d.edit)
    (htyped : d.edit.Typed)
    (hnumbers : ∀ x ∈ d.edit.numbers, Scalar.isFinite x = true → ReadsBack x)
    (hcreated : d.createdAt.ReadsBack) (hmodified : d.modifiedAt.ReadsBack) :
    (∀ (path : Path) (fs fs' : Files), (d.saving path).store fs = .ok fs' →
        load path (fs'.readText path) = .ok d)
      ∧ Json.decodeDocument decode d.text = .ok d
      ∧ Json.decodeDocument decode d.toJson.compactText = .ok d := by
  have haccepted := Specification.accepted_of_ofParts hedit
  have hfinite := (haccepted.valid htyped).isFinite
  -- What is accepted is finite, so the printing of its numbers is all that is asked for.
  have hcarries := carries (Specification.carries haccepted htyped
    fun x hx => hnumbers x hx (hfinite x hx)) hcreated hmodified
  have htext : Json.decodeDocument decode d.text = .ok d := hcarries.indentedText
  refine ⟨?_, htext, hcarries.compactText⟩
  intro path fs fs' hstore
  rw [Files.readText_of_store hstore]
  simp only [load, htext]

/-- A document with a crop, both markers, and a trim that ends in the slack behind its clip. -/
def late : Document Float where
  version := currentVersion
  createdAt := ⟨1735689600, 0⟩
  modifiedAt := ⟨1735693261, 250000000⟩
  sourcePath := ⟨"clips/\"take 2\".mp4"⟩
  edit :=
    { source := ⟨"\"take 2\".mp4", 10.0, 1920, 1080⟩
      trim := ⟨0.5, 10.0000000005⟩
      crop := some ⟨100, 50, 640, 360⟩
      zoom := ⟨some 3.0, some 5.25⟩
      exportSettings := ⟨15, 800, 256, 5, ⟨-1⟩, .high⟩
      background := ⟨true, ⟨255, 0, 128⟩, 0.1, 16⟩ }

theorem saved_document_loads_late :
    (∀ (path : Path) (fs fs' : Files), (late.saving path).store fs = .ok fs' →
        load path (fs'.readText path) = .ok late)
      ∧ Json.decodeDocument decode late.text = .ok late
      ∧ Json.decodeDocument decode late.toJson.compactText = .ok late := by
  have hedit : Specification.ofParts late.edit.source late.edit.trim late.edit.crop late.edit.zoom
      late.edit.exportSettings late.edit.background = .ok late.edit := by decide +kernel
  have hcrop : ∀ r ∈ late.edit.crop, r.InWords := by
    rintro r ⟨⟩
    exact ⟨by decide, by decide, by decide, by decide⟩
  have hsettings : late.edit.exportSettings.InRange :=
    ⟨⟨by decide, by decide⟩, ⟨by decide, by decide⟩, ⟨by decide, by decide⟩,
      ⟨by decide, by decide⟩, by decide⟩
  have htyped : late.edit.Typed :=
    ⟨by decide, by decide, hcrop, hsettings, ⟨by decide, by decide, by decide⟩, by decide⟩
  have hnumbers : ∀ x ∈ late.edit.numbers, ReadsBack x := by decide +kernel
  exact saved_document_loads late hedit htyped (fun x hx _ => hnumbers x hx) (by decide +kernel)
    (by decide +kernel)

end Document

/-! ## §2. Texts hold valid edits, or none. -/

/-- The edit of a document was read as an edit. -/
theorem Document.edit_of_decode {v : Json} {d : Document α} (h : decode v = .ok d) :
    ∃ v, Specification.decode v = .ok d.edit := by
  have hput {found found' : Found α} {key : String} {v : Json}
      (h : ∀ s ∈ found.edit, ∃ v, Specification.decode v = .ok s)
      (hput : schema.put found key v = .ok found') :
      ∀ s ∈ found'.edit, ∃ v, Specification.decode v = .ok s := by
    simp only [schema] at hput
    split at hput
    case h_5 =>
      obtain ⟨s, hs, rfl⟩ := bind_pure_eq_ok.mp hput
      exact Json.forall_mem_some ⟨v, hs⟩
    all_goals
      obtain ⟨_, -, rfl⟩ := bind_pure_eq_ok.mp hput
      exact h
  obtain ⟨found, hfound, hfinish⟩ := Schema.invariant nofun hput h
  simp only [schema, bind_eq_ok, Json.require_eq_ok] at hfinish
  obtain ⟨_, -, _, -, _, -, _, -, edit, hedit, hd⟩ := hfinish
  obtain rfl := Except.ok.inj hd
  exact hfound edit hedit

/-- **There is no way around the checks.**  Whatever text is read as an edit, or as a
document with an edit, the edit is valid. -/
theorem Specification.decoded_edit_is_valid [LawfulScalar α] (text : String) :
    (∀ s : Specification α, Json.decodeDocument decode text = .ok s → s.Valid)
    ∧ ∀ d : Document α, Json.decodeDocument Document.decode text = .ok d → d.edit.Valid := by
  constructor
  · intro s h
    obtain ⟨v, -, hdecode⟩ := Json.decodeDocument_eq_ok.mp h
    obtain ⟨haccepted, htyped⟩ := accepted_of_decode hdecode
    exact haccepted.valid htyped
  · intro d h
    obtain ⟨v, -, hdecode⟩ := Json.decodeDocument_eq_ok.mp h
    obtain ⟨w, hedit⟩ := Document.edit_of_decode hdecode
    obtain ⟨haccepted, htyped⟩ := accepted_of_decode hedit
    exact haccepted.valid htyped

/-- An edit written as an array that ends early, and a document whose keys stand in another
order, one of them unknown. -/
theorem Specification.decoded_edit_is_valid_sparse :
    (∃ s : Specification Float,
      Json.decodeDocument decode "[[\"a.mp4\",10,1920,1080],[0,10.0],[0,0,64,36]]" = .ok s
        ∧ s.Valid)
    ∧ ∃ d : Document Float,
      Json.decodeDocument Document.decode
          ("\x7b\"edit\":\x7b\"trim\":\x7b\"end\":4.5,\"start\":0.5,\"by\":[1]\x7d,"
            ++ "\"source\":[\"a.mp4\",10.0,1920,1080]\x7d,\"source_path\":\"a.mp4\","
            ++ "\"modified_at\":\"2025-01-01T01:00:00Z\","
            ++ "\"created_at\":\"2025-01-01T00:00:00Z\",\"version\":\"1.0\"\x7d")
        = .ok d ∧ d.edit.Valid := by
  have hedit : Json.decodeDocument decode "[[\"a.mp4\",10,1920,1080],[0,10.0],[0,0,64,36]]"
      = .ok (⟨⟨"a.mp4", 10.0, 1920, 1080⟩, ⟨0.0, 10.0⟩, some ⟨0, 0, 64, 36⟩, .none, .standard,
        .standard⟩ : Specification Float) := by decide +kernel
  have hdocument : Json.decodeDocument Document.decode
          ("\x7b\"edit\":\x7b\"trim\":\x7b\"end\":4.5,\"start\":0.5,\"by\":[1]\x7d,"
            ++ "\"source\":[\"a.mp4\",10.0,1920,1080]\x7d,\"source_path\":\"a.mp4\","
            ++ "\"modified_at\":\"2025-01-01T01:00:00Z\","
            ++ "\"created_at\":\"2025-01-01T00:00:00Z\",\"version\":\"1.0\"\x7d")
      = .ok (⟨"1.0", ⟨1735689600, 0⟩, ⟨1735693200, 0⟩, ⟨"a.mp4"⟩,
        ⟨⟨"a.mp4", 10.0, 1920, 1080⟩, ⟨0.5, 4.5⟩, none, .none, .standard, .standard⟩⟩ :
        Document Float) := by decide +kernel
  exact ⟨⟨_, hedit, (decoded_edit_is_valid _).1 _ hedit⟩,
    ⟨_, hdocument, (decoded_edit_is_valid _).2 _ hdocument⟩⟩

/-- Beside a frame as wide as the largest word, a crop is read that reaches over it: its right
edge is cut off to that word before it is compared. -/
theorem Specification.saturated_crop_is_read :
    ∃ s : Specification Float,
      Json.decodeDocument decode
          ("\x7b\"source\":[\"clip.mp4\",10.0,4294967295,4294967295],\"trim\":[0.0,10.0],"
            ++ "\"crop\":[4294967294,0,2,2],\"zoom\":[3.0,null]\x7d")
        = .ok s ∧ ∃ r ∈ s.crop, ¬ r.x + r.width ≤ s.source.width := by
  refine ⟨⟨⟨"clip.mp4", 10.0, 4294967295, 4294967295⟩, ⟨0.0, 10.0⟩, some ⟨4294967294, 0, 2, 2⟩,
    ⟨some 3.0, none⟩, .standard, .standard⟩, ?_, ⟨4294967294, 0, 2, 2⟩, rfl, by decide⟩
  decide +kernel

end GifEdit
