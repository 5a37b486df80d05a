/-
  GifEdit.Proofs.Render.Moves
  ───────────────────────────
  **WHAT AN EXPORT LEAVES IN ITS OUTPUT.**

  A render is made in a scratch directory, and the output is touched only when it is
  finished.  Every failure before that leaves the output as it was.  Renaming the render
  onto the output does all or nothing, too; but between file systems a rename fails, and
  copying does its work piece by piece:

      rename fails, copy fails              the output holds what was copied
      rename fails, copy done, remove fails the output holds the render, and the export fails

  So a failed export keeps its output unless it fails in the fallback, and then the answers of
  the file system tell what is left.

  The lemmas:

    * `move_eq`                 — a move puts the render in place or fails in the fallback,
    * `Encoder.render_output`   — what a render leaves,
    * `exportWith_output`       — an export leaves what its backend leaves.

  Main result: `exports_replace_or_keep`, for every job and all that it can meet.
-/
import GifEdit.Render.Export
import GifEdit.Scalar.Exact
import Mathlib.Data.List.Basic

namespace GifEdit

variable {α : Type}

/-! ## §1. Moves that fail. -/

/-- What the target holds after a move that fails, if it does: the copy may break off, or
the render stay behind once it is copied. -/
def MoveAnswers.leaves (answers : MoveAnswers) (rendered : Option String) :
    Option (Option String) :=
  match answers.rename, answers.copy, answers.remove with
  | some _, some (_, left), _ => some left
  | some _, none, some _ => some rendered
  | none, _, _ | some _, none, none => none

/-- **A move either puts the render in place or fails in the fallback.** -/
theorem OutputFiles.move_eq (files : OutputFiles) (answers : MoveAnswers) :
    (answers.leaves files.rendered = none
        ∧ files.move answers = (.ok (), ⟨none, files.rendered⟩))
      ∨ ∃ cause left, answers.leaves files.rendered = some left
        ∧ files.move answers = (.error cause, ⟨files.rendered, left⟩) := by
  unfold MoveAnswers.leaves move
  cases answers.rename with
  | none => exact .inl ⟨rfl, rfl⟩
  | some _ =>
      cases answers.copy with
      | some broken => exact .inr ⟨broken.1, broken.2, rfl, rfl⟩
      | none =>
          cases answers.remove with
          | some cause => exact .inr ⟨cause, files.rendered, rfl, rfl⟩
          | none => exact .inl ⟨rfl, rfl⟩

/-! ## §2. What a render leaves. -/

/-- What becomes of an output: a success puts in its place what the encoder wrote; a failure
keeps it, or leaves what a move that fails leaves. -/
structure ReplacesOrKeeps {β : Type} (answers : EncoderAnswers α) (result : Except Failure β)
    (before after : Option String) : Prop where
  success : ∀ b, result = .ok b →
    ∃ r, answers.run = .ok r ∧ r.written.isSome = true ∧ after = r.written
  failure : ∀ f, result = .error f → after = before
    ∨ ∃ r, answers.run = .ok r ∧ answers.move.leaves r.written = some after

/-- A failure that comes before the output is touched. -/
theorem ReplacesOrKeeps.of_kept {β : Type} {answers : EncoderAnswers α} {f : Failure}
    {before : Option String} :
    ReplacesOrKeeps answers (.error f : Except Failure β) before before where
  success _ h := nomatch h
  failure _ _ := .inl rfl

namespace Encoder

/-- A run that is judged well has written the render. -/
theorem written_of_judge {scratch : Path} {r : EncoderRun α} (h : judge scratch r = .ok ()) :
    r.written.isSome = true := by
  unfold judge at h
  split at h
  · exact nomatch h
  · exact nomatch h
  · exact nomatch h
  · split at h
    · exact nomatch h
    · split at h
      · exact nomatch h
      · rename_i hwritten
        exact Option.isSome_iff_ne_none.mpr fun hnone => hwritten (by rw [hnone]; rfl)

variable [Scalar α]

/-- **A render that comes to the move** leaves what the move leaves, and any other keeps the
output. -/
theorem renderIn_output (program : String) (p : Pipeline α) (job : ExportJob α)
    (scratch : Path) (answers : EncoderAnswers α) (target : Option String) :
    let o := renderIn program p job scratch answers target
    ReplacesOrKeeps answers o.result target o.target := by
  unfold renderIn
  cases drawMask p scratch answers.mask with
  | error f => exact .of_kept
  | ok _ =>
      dsimp only
      cases hrun : answers.run with
      | error cause => exact .of_kept
      | ok r =>
          dsimp only
          cases hjudge : judge scratch r with
          | error f => exact .of_kept
          | ok _ =>
              -- Up to here the output was not touched; the rest is one move.
              have hwritten := written_of_judge hjudge
              obtain ⟨hleaves, hmove⟩ | ⟨cause, left, hleaves, hmove⟩ :=
                OutputFiles.move_eq ⟨r.written, target⟩ answers.move
              · rw [hmove]
                exact ⟨fun _ _ => ⟨r, hrun, hwritten, rfl⟩, fun _ h => nomatch h⟩
              · rw [hmove]
                exact ⟨fun _ h => (nomatch h), fun _ _ => .inr ⟨r, hrun, hleaves⟩⟩

theorem render_output (program : String) (answers : EncoderAnswers α) (job : ExportJob α)
    (target : Option String) :
    let o := render program answers job target
    ReplacesOrKeeps answers o.result target o.target := by
  unfold render
  cases answers.scratch with
  | error cause => exact .of_kept
  | ok scratch => exact renderIn_output ..

end Encoder

/-! ## §3. What an export leaves. -/

variable [Scalar α]

/-- An export leaves what its backend leaves, and keeps the output if it does not come that
far. -/
theorem exportWith_output {backend : Backend α} {job : ExportJob α} {scene : ExportScene}
    {answers : EncoderAnswers α}
    (h : ReplacesOrKeeps answers (backend.render job scene.target).result scene.target
      (backend.render job scene.target).target) :
    let o := exportWith backend job scene
    ReplacesOrKeeps answers o.result scene.target o.target := by
  unfold exportWith
  cases scene.sourceExists with
  | false => exact .of_kept
  | true =>
      dsimp only
      cases job.output.directory?.bind fun _ => scene.directory with
      | some cause => exact .of_kept
      | none =>
          dsimp only
          cases backend.isAvailable with
          | false => exact .of_kept
          | true =>
              -- What the export makes of the output is what the backend made of it.
              cases hresult : (backend.render job scene.target).result with
              | ok _ =>
                  obtain ⟨r, hrun⟩ := h.success _ hresult
                  exact ⟨fun _ _ => ⟨r, hrun⟩, fun _ herror => nomatch herror⟩
              | error f =>
                  have hkept := h.failure f hresult
                  exact ⟨fun _ hok => (nomatch hok), fun _ _ => hkept⟩

/-- **AN EXPORT REPLACES ITS OUTPUT OR KEEPS IT, BUT FOR A FALLBACK THAT FAILS**: for every
job, whatever the file system and the encoder do, a success leaves what the encoder wrote.
A failure leaves the output as it was, or else the render could not be renamed and then
not be copied and removed, and the output holds what that left. -/
theorem exports_replace_or_keep (job : ExportJob α) (scene : ExportScene)
    (version : Except SystemError ProgramRun) (answers : EncoderAnswers α) :
    let o := exportJob job scene version answers
    ReplacesOrKeeps answers o.result scene.target o.target :=
  exportWith_output (Encoder.render_output ..)

/-- **A failed export that spoils its output**: the render cannot be renamed, and its copy
breaks off in the middle; or the copy is complete, and then the render cannot be removed. -/
theorem failed_fallback_spoils_output :
    let s : Specification Exact :=
      ⟨⟨"clip.mp4", 10, 1920, 1080⟩, ⟨1, 9⟩, none, ⟨none, none⟩, .standard, .standard⟩
    let run : EncoderRun Exact :=
      { run := { printed := "progress=end\n" }, written := some "GIF89a new", elapsed := fun _ => 0 }
    let exported (move : MoveAnswers) : ExportOutcome Exact :=
      exportJob (.besideSource ⟨"clip.mp4"⟩ s {})
        { sourceExists := true, target := some "GIF89a old" } (.ok {})
        { scratch := .ok ⟨"scratch"⟩, run := .ok run, move := move }
    let crossed : SystemError := ⟨"Invalid cross-device link", some 18⟩
    let broken := exported
      { rename := some crossed, copy := some (.deviceFull, some "GIF8") }
    let copied := exported { rename := some crossed, remove := some .permissionDenied }
    broken.result = .error (.system .deviceFull) ∧ broken.target = some "GIF8"
      ∧ copied.result = .error (.system .permissionDenied)
      ∧ copied.target = some "GIF89a new" := by
  decide +kernel

end GifEdit
