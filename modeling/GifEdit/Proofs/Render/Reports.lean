/-
  GifEdit.Proofs.Render.Reports
  ─────────────────────────────
  **HOW THE REPORTS OF AN EXPORT END.**

  Whoever waits for an export sees its reports only, so the last of them has to tell that
  the export is over, and how:

      preparing, preparing?, (rendering | finalizing)*, complete | failed

  Two layers send them.  A render closes a success and leaves a failure open; the export
  around it sends the first report and closes the failures of the render.  Between the
  two lies the question whether the backend is available, and an export that ends there
  has sent its first report and sends no other.

  The lemmas:

    * `reportsFrom_open`           — no report on what the encoder prints is a last one,
    * `Encoder.render_reports`     — a render closes a success and nothing else,
    * `exportWith_endsRight`       — an available backend of this kind ends right,
    * `exportWith_of_unavailable`  — and what comes of one that is not available.

  Main result: `exports_end_right`, for every job and all that it can meet.
-/
import GifEdit.Render.Export
import GifEdit.Scalar.Exact
import Mathlib.Data.List.Basic

namespace GifEdit

variable {α : Type}

/-! ## §1. Open and closed reports. -/

/-- Whether an export goes on after a report of this stage. -/
def ExportStage.isOpen : ExportStage → Bool
  | .preparing | .rendering | .finalizing => true
  | .complete | .failed => false

/-- Reports after each of which the export goes on. -/
def StayOpen (reports : List (ExportProgress α)) : Prop :=
  ∀ r ∈ reports, r.stage.isOpen = true

/-- Reports of which the last has a given stage and all others are open. -/
def ClosedBy (stage : ExportStage) (reports : List (ExportProgress α)) : Prop :=
  ∃ before last, reports = before ++ [last] ∧ StayOpen before ∧ last.stage = stage

/-- The stages an export reports. -/
def ExportOutcome.stages (o : ExportOutcome α) : List ExportStage :=
  o.reports.map ExportProgress.stage

/-- **An export ends in the right report**: a success in `complete`, and a failure in
`failed` once there was a report at all; and neither sends the other's. -/
structure ExportOutcome.EndsRight (o : ExportOutcome α) : Prop where
  complete : ∀ path, o.result = .ok path →
    o.stages.getLast? = some .complete ∧ .failed ∉ o.stages
  failed : ∀ f, o.result = .error f → o.stages ≠ [] →
    o.stages.getLast? = some .failed ∧ .complete ∉ o.stages

/-- Open reports after open reports stay open. -/
theorem StayOpen.append {first second : List (ExportProgress α)} (hfirst : StayOpen first)
    (hsecond : StayOpen second) : StayOpen (first ++ second) := by
  intro r hr
  cases List.mem_append.1 hr with
  | inl h => exact hfirst r h
  | inr h => exact hsecond r h

/-- What closes later reports closes all of them. -/
theorem ClosedBy.after {stage : ExportStage} {first second : List (ExportProgress α)}
    (hfirst : StayOpen first) (hsecond : ClosedBy stage second) :
    ClosedBy stage (first ++ second) := by
  obtain ⟨before, last, rfl, hbefore, hlast⟩ := hsecond
  exact ⟨first ++ before, last, (List.append_assoc ..).symm, hfirst.append hbefore, hlast⟩

namespace ExportOutcome

variable {o : ExportOutcome α} {stage other : ExportStage}

theorem stages_eq_nil : o.stages = [] ↔ o.reports = [] := List.map_eq_nil_iff

theorem getLast?_stages (h : ClosedBy stage o.reports) : o.stages.getLast? = some stage := by
  obtain ⟨before, last, hreports, -, rfl⟩ := h
  unfold stages
  rw [hreports, List.map_append, List.map_singleton, List.getLast?_concat]

/-- Closed reports hold no other closing stage than their last. -/
theorem not_mem_stages (h : ClosedBy stage o.reports) (hother : other.isOpen = false)
    (hne : other ≠ stage) : other ∉ o.stages := by
  obtain ⟨before, last, hreports, hbefore, rfl⟩ := h
  intro hmem
  obtain ⟨r, hr, rfl⟩ := List.mem_map.1 hmem
  rw [hreports] at hr
  cases List.mem_append.1 hr with
  | inl h => exact Bool.false_ne_true (hother.symm.trans (hbefore r h))
  | inr h => exact hne (congrArg ExportProgress.stage (List.mem_singleton.1 h))

/-! ## §2. Endings that are right. -/

/-- A success ends right if `complete` closes its reports. -/
theorem endsRight_of_success {path : Path} (hresult : o.result = .ok path)
    (h : ClosedBy .complete o.reports) : o.EndsRight where
  complete _ _ := ⟨getLast?_stages h, not_mem_stages h rfl nofun⟩
  failed _ hf := nomatch hresult.symm.trans hf

theorem endsRight_of_failure {f : Failure} (hresult : o.result = .error f)
    (h : ClosedBy .failed o.reports) : o.EndsRight where
  complete _ hpath := nomatch hresult.symm.trans hpath
  failed _ _ _ := ⟨getLast?_stages h, not_mem_stages h rfl nofun⟩

/-- An export that fails before its first report leaves nobody waiting. -/
theorem endsRight_of_silence {f : Failure} (hresult : o.result = .error f)
    (h : o.reports = []) : o.EndsRight where
  complete _ hpath := nomatch hresult.symm.trans hpath
  failed _ _ hne := absurd (stages_eq_nil.2 h) hne

/-- A failure whose last report is open does not end right. -/
theorem not_endsRight_of_open {f : Failure} (hresult : o.result = .error f)
    (hlast : o.stages.getLast? = some stage) (hopen : stage.isOpen = true) :
    ¬ o.EndsRight := by
  intro h
  have hne : o.stages ≠ [] := by
    intro hnil
    rw [hnil] at hlast
    exact nomatch hlast
  obtain rfl := Option.some.inj (hlast.symm.trans (h.failed f hresult hne).1)
  exact nomatch hopen

end ExportOutcome

/-! ## §3. Renders that leave failures open. -/

/-- A render whose reports leave to the export around it to close a failure. -/
structure Rendering.ReportsRight (r : Rendering α) : Prop where
  success : r.result = .ok () → ClosedBy .complete r.reports
  failure : ∀ f, r.result = .error f → StayOpen r.reports

/-- A render that succeeds closes its reports. -/
theorem Rendering.ReportsRight.of_success {r : Rendering α} (hresult : r.result = .ok ())
    (h : ClosedBy .complete r.reports) : r.ReportsRight where
  success _ := h
  failure _ hf := nomatch hresult.symm.trans hf

/-- A render that fails leaves them open, for the export to close. -/
theorem Rendering.ReportsRight.of_failure {r : Rendering α} {f : Failure}
    (hresult : r.result = .error f) (h : StayOpen r.reports) : r.ReportsRight where
  success hok := nomatch hresult.symm.trans hok
  failure _ _ := h

/-! ## §4. Reports of the encoder. -/

variable [Scalar α]

theorem stayOpen_preparing (totalFrames : Nat) :
    StayOpen [(ExportProgress.idle .preparing totalFrames : ExportProgress α)] := by
  intro r hr
  rw [List.mem_singleton.1 hr]
  rfl

/-- No report of the encoder closes anything. -/
theorem EncoderState.report_open (s : EncoderState α) (totalFrames : Nat)
    (expected elapsed : α) : (s.report totalFrames expected elapsed).stage.isOpen = true := by
  show (if s.ended then ExportStage.finalizing else .rendering).isOpen = true
  cases s.ended with
  | false | true => rfl

/-- **Whatever lines the encoder prints**, no report on them is a last one. -/
theorem reportsFrom_open (totalFrames : Nat) (expected : α) (elapsed : Nat → α)
    (lines : List (List Char)) : ∀ (s : EncoderState α) (n : Nat),
      StayOpen (reportsFrom totalFrames expected elapsed s n lines) := by
  induction lines with
  | nil => exact fun _ _ => nofun
  | cons line lines ih =>
      intro s n
      unfold reportsFrom
      cases keyValue? line with
      | none => exact ih s n
      | some entry =>
          obtain ⟨key, value⟩ := entry
          dsimp only
          -- Only a line that closes a block is reported on.
          by_cases hkey : (key == "progress") = true
          · rw [if_pos hkey]
            intro r hr
            cases List.mem_cons.1 hr with
            | inl h =>
                rw [h]
                exact EncoderState.report_open ..
            | inr h => exact ih _ _ r h
          · rw [if_neg hkey]
            exact ih _ _

namespace Encoder

open Rendering

/-- **A render closes a success and nothing else**, wherever in its course it fails. -/
theorem renderIn_reports (program : String) (p : Pipeline α) (job : ExportJob α)
    (scratch : Path) (answers : EncoderAnswers α) (target : Option String) :
    (renderIn program p job scratch answers target).ReportsRight := by
  unfold renderIn
  cases drawMask p scratch answers.mask with
  | error f => exact .of_failure rfl nofun
  | ok _ =>
      dsimp only
      cases answers.run with
      | error cause => exact .of_failure rfl (stayOpen_preparing _)
      | ok r =>
          dsimp only
          -- All that is sent until the encoder is judged, whatever the verdict.
          have hfollowed : StayOpen ([ExportProgress.idle .preparing p.totalFrames] ++
              encoderReports p.totalFrames p.duration r.elapsed r.run.printed) :=
            (stayOpen_preparing _).append (reportsFrom_open _ _ _ _ _ _)
          cases judge scratch r with
          | error f => exact .of_failure rfl hfollowed
          | ok _ =>
              dsimp only
              cases OutputFiles.move ⟨r.written, target⟩ answers.move with
              | mk result files =>
                  cases result with
                  | error cause => exact .of_failure rfl hfollowed
                  | ok _ => exact .of_success rfl ⟨_, _, rfl, hfollowed, rfl⟩

/-- The encoder reports right, in whatever way it ends. -/
theorem render_reports (program : String) (answers : EncoderAnswers α) (job : ExportJob α)
    (target : Option String) : (render program answers job target).ReportsRight := by
  unfold render
  cases answers.scratch with
  | error cause => exact .of_failure rfl nofun
  | ok scratch => exact renderIn_reports ..

end Encoder

/-! ## §5. Exports. -/

section Exports

variable {backend : Backend α} {job : ExportJob α} {scene : ExportScene}

/-- An export with an available backend ends right if its renders report right. -/
theorem exportWith_endsRight (havailable : backend.isAvailable = true)
    (hrender : (backend.render job scene.target).ReportsRight) :
    (exportWith backend job scene).EndsRight := by
  unfold exportWith
  rw [havailable]
  cases scene.sourceExists with
  | false => exact ExportOutcome.endsRight_of_silence rfl rfl
  | true =>
      dsimp only
      cases job.output.directory?.bind fun _ => scene.directory with
      | some cause => exact ExportOutcome.endsRight_of_silence rfl rfl
      | none =>
          dsimp only
          cases hresult : (backend.render job scene.target).result with
          | ok _ =>
              exact ExportOutcome.endsRight_of_success rfl
                ((hrender.success hresult).after (stayOpen_preparing 0))
          | error f =>
              exact ExportOutcome.endsRight_of_failure rfl
                ⟨_, _, rfl, (stayOpen_preparing 0).append (hrender.failure f hresult), rfl⟩

/-- **A backend that is not available** fails every export; if a report was sent until
then, it stays the only one. -/
theorem exportWith_of_unavailable (havailable : backend.isAvailable = false) :
    (∃ f, (exportWith backend job scene).result = .error f) ∧
      ((exportWith backend job scene).stages = [] ∨
        (exportWith backend job scene).stages = [.preparing] ∧
          ∃ reason, (exportWith backend job scene).result = .error (.unsupported reason)) := by
  unfold exportWith
  rw [havailable]
  cases scene.sourceExists with
  | false => exact ⟨⟨_, rfl⟩, .inl rfl⟩
  | true =>
      dsimp only
      cases job.output.directory?.bind fun _ => scene.directory with
      | some cause => exact ⟨⟨_, rfl⟩, .inl rfl⟩
      | none => exact ⟨⟨_, rfl⟩, .inr ⟨rfl, _, rfl⟩⟩

end Exports

/-- **Every export ends in the right report, or at the question whether the encoder is
available.**  For every job, whatever the file system and the encoder do: the export ends
right if and only if the encoder can be used or no report was sent, and an export that
does not end right is refused as unsupported with `preparing` as its only report. -/
theorem exports_end_right (job : ExportJob α) (scene : ExportScene)
    (version : Except SystemError ProgramRun) (answers : EncoderAnswers α) :
    let o := exportJob job scene version answers
    (o.EndsRight ↔ Encoder.isRunnable version = true ∨ o.stages = [])
      ∧ (o.EndsRight
        ∨ o.stages = [.preparing] ∧ ∃ reason, o.result = .error (.unsupported reason)) := by
  intro o
  cases havailable : Encoder.isRunnable version with
  | true =>
      have h : o.EndsRight := exportWith_endsRight havailable (Encoder.render_reports ..)
      exact ⟨⟨fun _ => .inl rfl, fun _ => h⟩, .inl h⟩
  | false =>
      obtain ⟨⟨f, hf⟩, hstages⟩ : (∃ f, o.result = .error f) ∧ _ :=
        exportWith_of_unavailable havailable
      -- Without an encoder there was no report yet, or `preparing` stays the last.
      cases hstages with
      | inl hnil =>
          have h : o.EndsRight :=
            ExportOutcome.endsRight_of_silence hf (ExportOutcome.stages_eq_nil.1 hnil)
          exact ⟨⟨fun _ => .inr hnil, fun _ => h⟩, .inl h⟩
      | inr hopen =>
          have hnot : ¬ o.EndsRight :=
            ExportOutcome.not_endsRight_of_open hf (congrArg List.getLast? hopen.1) rfl
          refine ⟨⟨fun h => absurd h hnot, fun h => ?_⟩, .inr hopen⟩
          cases h with
          | inl h => exact nomatch h
          | inr hnil => exact nomatch hopen.1.symm.trans hnil

/-- The stages of an export that succeeds: one report comes before the render, and the
encoder closes one block. -/
example :
    let s : Specification Exact :=
      ⟨⟨"clip.mp4", 10, 1920, 1080⟩, ⟨1, 9⟩, none, ⟨none, none⟩, .standard, .standard⟩
    let run : EncoderRun Exact :=
      { run := { printed := "progress=end\n" }, written := some "GIF89a new", elapsed := fun _ => 0 }
    (exportJob (.besideSource ⟨"clip.mp4"⟩ s {}) { sourceExists := true } (.ok {})
        { scratch := .ok ⟨"scratch"⟩, run := .ok run }).stages
      = [.preparing, .preparing, .finalizing, .complete] := by
  decide +kernel

/-- **An export that leaves who waits for it waiting**: the encoder is there but exits with
one when asked for its version, and the only report says that the export is prepared. -/
theorem unavailable_export_stays_open :
    let source : Clip Exact := ⟨"clip.mp4", 10, 1920, 1080⟩
    let crop : Option Region := some ⟨480, 270, 960, 540⟩
    let s : Specification Exact :=
      ⟨source, ⟨1, 9⟩, crop, ⟨some 3, none⟩, .standard, .standard⟩
    let run : EncoderRun Exact :=
      { run := { printed := "progress=end\n" }, written := some "GIF89a new", elapsed := fun _ => 0 }
    let o := exportJob (.besideSource ⟨"clip.mp4"⟩ s { encoder := "./ffmpeg" })
      { sourceExists := true } (.ok { status := 1 }) { scratch := .ok ⟨"scratch"⟩, run := .ok run }
    Specification.ofParts source ⟨1, 9⟩ crop ⟨some 3, none⟩ .standard .standard = .ok s
      ∧ o.result = .error (.unsupported
          "Render backend 'ffmpeg' is not available (is ./ffmpeg in PATH?)")
      ∧ o.stages = [.preparing] ∧ ¬ o.EndsRight := by
  intro source crop s run o
  have hs : Specification.ofParts source ⟨1, 9⟩ crop ⟨some 3, none⟩ .standard .standard = .ok s := by
    decide +kernel
  have hresult : o.result = .error (.unsupported
      "Render backend 'ffmpeg' is not available (is ./ffmpeg in PATH?)") := by decide +kernel
  have hstages : o.stages = [.preparing] := by decide +kernel
  exact ⟨hs, hresult, hstages,
    ExportOutcome.not_endsRight_of_open hresult (congrArg List.getLast? hstages) rfl⟩

end GifEdit
