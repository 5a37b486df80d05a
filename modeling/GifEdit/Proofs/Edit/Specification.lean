/-
  GifEdit.Proofs.Edit.Specification
  ─────────────────────────────────
  **WHAT AN EDIT HAS PASSED.**

  `Specification.ofParts` runs five checks in a row and then puts the parts
  together.  `Accepted` lists the checks; an edit comes out of `ofParts` exactly when
  it has passed them, and then its parts are the given ones.

  The check of the zoom markers is a cascade of cases; `check_zoom_iff` says which
  windows come through.
-/
import GifEdit.Edit.Specification
import GifEdit.Proofs.Fallible

namespace GifEdit

variable {α : Type} [Scalar α]

/-! ## §1. The trim. -/

theorem TrimRange.ofBounds_eq_ok {start stop duration : α} {t : TrimRange α} :
    TrimRange.ofBounds start stop duration = .ok t
      ↔ TrimRange.isValid start stop duration = true ∧ t = ⟨start, stop⟩ := by
  unfold TrimRange.ofBounds
  by_cases h : TrimRange.isValid start stop duration = true
  · rw [if_pos h]
    simp [h, eq_comm]
  · rw [if_neg h]
    simp [h]

/-! ## §2. The zoom markers. -/

/-- A window comes through without markers, or with a zoom-in inside the trim, a zoom-out
in order if there is one, and a crop to zoom to. -/
theorem ZoomWindow.check_zoom_iff {z : ZoomWindow α} {trim : TrimRange α} {hasCrop : Bool} :
    z.check trim hasCrop = .ok () ↔
      (z.start = .none ∧ z.stop = .none) ∨
      (hasCrop = true ∧ ∃ a, z.start = some a ∧ Scalar.isFinite a = true
        ∧ trim.contains a = true ∧ ∀ b ∈ z.stop, isOrdered trim a b = true) := by
  obtain ⟨start, stop⟩ := z
  -- A zoom-out alone is refused, whatever the crop; with a zoom-in the crop comes first.
  cases start with
  | none => cases stop <;> simp [check]
  | some a =>
      cases hasCrop with
      | false => cases stop <;> simp [check]
      | true =>
          cases stop with
          | none => simp [check]
          | some b => by_cases hb : isOrdered trim a b = true <;> simp [check, hb]

/-! ## §3. The crop. -/

namespace Specification

omit [Scalar α] in
/-- The crop of an edit fits as far as its far edges can be written as words, and its sides
can be encoded. -/
theorem checkCrop_eq_ok {frame : Frame} {r : Region} :
    (checkCrop frame (some r) : Except (EditError α) Unit) = .ok ()
      ↔ r.fitsWithin frame = true ∧ r.isDegenerate = false ∧ r.isEven = true := by
  unfold checkCrop
  dsimp only
  cases r.fitsWithin frame with
  | false => simp
  | true =>
      cases r.isDegenerate with
      | true => simp
      | false => cases r.isEven <;> simp

/-! ## §4. The checks in a row. -/

/-- The checks that an edit has passed. -/
structure Accepted (s : Specification α) : Prop where
  source : s.source.check = .ok ()
  trim : TrimRange.isValid s.trim.start s.trim.stop s.source.duration = true
  crop : (checkCrop s.source.frame s.crop : Except (EditError α) Unit) = .ok ()
  zoom : s.zoom.check s.trim s.crop.isSome = .ok ()
  background : s.background.check = .ok ()

/-- An edit with valid parts is accepted as it is. -/
theorem ofParts_of_accepted {s : Specification α} (h : s.Accepted) :
    ofParts s.source s.trim s.crop s.zoom s.exportSettings s.background = .ok s := by
  have htrim : TrimRange.ofBounds s.trim.start s.trim.stop s.source.duration = .ok s.trim :=
    TrimRange.ofBounds_eq_ok.mpr ⟨h.trim, rfl⟩
  unfold ofParts
  rw [h.source, htrim, h.crop, h.zoom, h.background]
  rfl

/-- **Whatever was accepted has valid parts.** -/
theorem accepted_of_ofParts {source : Clip α} {trim : TrimRange α} {crop : Option Region}
    {zoom : ZoomWindow α} {exportSettings : ExportSettings} {background : Background α}
    {s : Specification α}
    (h : ofParts source trim crop zoom exportSettings background = .ok s) : s.Accepted := by
  unfold ofParts at h
  simp only [bind_eq_ok, TrimRange.ofBounds_eq_ok] at h
  obtain ⟨_, hsource, _, ⟨htrim, -⟩, _, hcrop, _, hzoom, _, hbackground, hparts⟩ := h
  obtain rfl := Except.ok.inj hparts
  exact ⟨hsource, htrim, hcrop, hzoom, hbackground⟩

/-- Without a crop there are no markers. -/
theorem Accepted.zoom_eq_none {s : Specification α} (h : s.Accepted) (hcrop : s.crop = none) :
    s.zoom = .none := by
  have hzoom := h.zoom
  rw [hcrop, ZoomWindow.check_zoom_iff] at hzoom
  rcases hzoom with ⟨hstart, hstop⟩ | ⟨hsome, -⟩
  · show ZoomWindow.mk s.zoom.start s.zoom.stop = .none
    rw [hstart, hstop]
    rfl
  · exact nomatch hsome

/-- The parts come out as they were put in. -/
theorem eq_of_ofParts {source : Clip α} {trim : TrimRange α} {crop : Option Region}
    {zoom : ZoomWindow α} {exportSettings : ExportSettings} {background : Background α}
    {s : Specification α}
    (h : ofParts source trim crop zoom exportSettings background = .ok s) :
    s = ⟨source, trim, crop, zoom, exportSettings, background⟩ := by
  unfold ofParts at h
  simp only [bind_eq_ok] at h
  obtain ⟨_, -, _, -, _, -, _, -, _, -, hparts⟩ := h
  exact (Except.ok.inj hparts).symm

end Specification
end GifEdit
