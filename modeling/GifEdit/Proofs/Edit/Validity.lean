/-
  GifEdit.Proofs.Edit.Validity
  ────────────────────────────
  **WHAT HOLDS OF EVERY EDIT.**

  Two things keep an edit sound, and neither is the other:

      its types   words of 32 bits, bytes, settings that were clamped or checked when they
                  were made (`Typed`)
      its checks  the row of checks in `Specification.ofParts` (`Accepted`)

  `Valid` spells out, number by number, what both amount to.  The far edges of a crop are
  written as words, so a frame whose side is the largest word does not bound them; every
  smaller side does.
-/
import GifEdit.Proofs.Edit.Specification
import GifEdit.Proofs.Geometry.Letterbox
import GifEdit.Proofs.Scalar.Laws

namespace GifEdit

/-! ## §1. What the types hold. -/

/-- The number lies in the range. -/
def Span.Has (s : Span) (n : Nat) : Prop := s.low ≤ n ∧ n ≤ s.high

/-- Settings in their ranges, with a loop count on offer. -/
structure ExportSettings.InRange (e : ExportSettings) : Prop where
  fps : fpsSpan.Has e.fps
  width : widthSpan.Has e.width
  colors : colorsSpan.Has e.colors
  dither : ditherSpan.Has e.dither
  loopCount : e.loopCount.count ∈ LoopCount.allowed

/-- The standard settings are in their ranges. -/
theorem ExportSettings.inRange_standard : standard.InRange where
  fps := ⟨by decide, by decide⟩
  width := ⟨by decide, by decide⟩
  colors := ⟨by decide, by decide⟩
  dither := ⟨by decide, by decide⟩
  loopCount := by decide

/-- The check of a range passes what is in it. -/
theorem ExportSettings.inSpan_eq_ok {α : Type} {field : String} {n : Nat} {s : Span} :
    (inSpan field n s : Except (EditError α) Unit) = .ok () ↔ s.Has n := by
  unfold inSpan Span.Has
  split_ifs with h <;> simpa using h

/-- Settings are made of values in their ranges, and of no others. -/
theorem ExportSettings.ofValues_eq_ok {α : Type} {fps width colors dither : Nat} {l : LoopCount}
    {e : ExportSettings} :
    (ofValues fps width colors dither l : Except (EditError α) ExportSettings) = .ok e
      ↔ fpsSpan.Has fps ∧ widthSpan.Has width ∧ colorsSpan.Has colors ∧ ditherSpan.Has dither
        ∧ e = ⟨fps, width, colors, dither, l, .custom⟩ := by
  unfold ofValues
  simp only [check_bind_eq_ok, inSpan_eq_ok]
  constructor
  · rintro ⟨hfps, hwidth, hcolors, hdither, h⟩
    exact ⟨hfps, hwidth, hcolors, hdither, (Except.ok.inj h).symm⟩
  · rintro ⟨hfps, hwidth, hcolors, hdither, rfl⟩
    exact ⟨hfps, hwidth, hcolors, hdither, rfl⟩

/-- The loop counts that are let through are the allowed ones. -/
theorem LoopCount.ofInt_eq_ok {α : Type} {n : Int} {l : LoopCount} :
    (ofInt n : Except (EditError α) LoopCount) = .ok l ↔ n ∈ allowed ∧ l = ⟨n⟩ := by
  unfold ofInt
  by_cases h : n ∈ allowed
  · rw [if_pos (List.contains_iff_mem.mpr h)]
    simp [h, eq_comm]
  · rw [if_neg (mt List.contains_iff_mem.mp h)]
    simp [h]

/-- Channels of one byte. -/
structure Color.InBytes (c : Color) : Prop where
  r : c.r < 256
  g : c.g < 256
  b : c.b < 256

theorem Color.hexDigit?_lt {c : Char} {n : Nat} (h : hexDigit? c = some n) : n < 16 := by
  have hle {low high : Char} (hin : (low ≤ c && c ≤ high) = true) : c.toNat ≤ high.toNat := by
    rw [Bool.and_eq_true, decide_eq_true_iff, decide_eq_true_iff] at hin
    exact hin.2
  unfold hexDigit? at h
  split_ifs at h with hdigit hlower hupper
  all_goals obtain rfl := Option.some.inj h
  · have hnine : c.toNat ≤ 57 := hle hdigit
    show c.toNat - 48 < 16
    omega
  · have hf : c.toNat ≤ 102 := hle hlower
    show c.toNat - 97 + 10 < 16
    omega
  · have hF : c.toNat ≤ 70 := hle hupper
    show c.toNat - 65 + 10 < 16
    omega

theorem Color.channel?_lt {a b : Char} {n : Nat} (h : channel? a b = some n) : n < 256 := by
  unfold channel? at h
  cases ha : hexDigit? a with
  | none => simp [ha] at h
  | some high =>
      cases hb : hexDigit? b with
      | none => simp [ha, hb] at h
      | some low =>
          simp only [ha, hb, Option.bind_eq_bind, Option.bind_some, Option.pure_def,
            Option.some.injEq] at h
          have hhigh := hexDigit?_lt ha
          have hlow := hexDigit?_lt hb
          omega

/-- A color that is named by a text has channels of one byte. -/
theorem Color.inBytes_of_ofText {α : Type} {s : String} {c : Color}
    (h : (ofText s : Except (EditError α) Color) = .ok c) : c.InBytes := by
  unfold ofText at h
  split at h
  · rename_i d hd
    obtain rfl := Except.ok.inj h
    unfold ofChars? at hd
    split at hd
    · simp only [Option.bind_eq_bind, Option.pure_def, Option.bind_eq_some_iff,
        Option.some.injEq] at hd
      obtain ⟨r, hr, g, hg, b, hb, rfl⟩ := hd
      exact ⟨channel?_lt hr, channel?_lt hg, channel?_lt hb⟩
    · exact nomatch hd
  · exact nomatch h

theorem Color.hexDigit?_digitChar : ∀ n < 16, hexDigit? (Nat.digitChar n) = some n := by
  decide

/-- The two digits of a byte are read back as it. -/
theorem Color.channel?_digitChars {n : Nat} (h : n < 256) :
    channel? (Nat.digitChar (n / 16)) (Nat.digitChar (n % 16)) = some n := by
  have hhigh := hexDigit?_digitChar (n / 16) (by omega)
  have hlow := hexDigit?_digitChar (n % 16) (by omega)
  have hvalue : 16 * (n / 16) + n % 16 = n := Nat.div_add_mod n 16
  simp only [channel?, hhigh, hlow, Option.bind_eq_bind, Option.bind_some, Option.pure_def,
    hvalue]

/-- A color is named by its own text. -/
theorem Color.ofText_text {α : Type} {c : Color} (h : c.InBytes) :
    (ofText c.text : Except (EditError α) Color) = .ok c := by
  have hchars : ofChars? c.text.toList = some c := by
    unfold text
    rw [String.toList_ofList]
    show (do return ⟨← channel? (Nat.digitChar (c.r / 16)) (Nat.digitChar (c.r % 16)),
        ← channel? (Nat.digitChar (c.g / 16)) (Nat.digitChar (c.g % 16)),
        ← channel? (Nat.digitChar (c.b / 16)) (Nat.digitChar (c.b % 16))⟩) = some c
    rw [channel?_digitChars h.r, channel?_digitChars h.g, channel?_digitChars h.b]
    rfl
  unfold ofText
  rw [hchars]

/-- Position and sides that are words. -/
structure Region.InWords (r : Region) : Prop where
  x : r.x ≤ Scalar.wordMax
  y : r.y ≤ Scalar.wordMax
  width : r.width ≤ Scalar.wordMax
  height : r.height ≤ Scalar.wordMax

/-- What the types of an edit hold, before anything is checked. -/
structure Specification.Typed {α : Type} (s : Specification α) : Prop where
  width : s.source.width ≤ Scalar.wordMax
  height : s.source.height ≤ Scalar.wordMax
  crop : ∀ r ∈ s.crop, r.InWords
  exportSettings : s.exportSettings.InRange
  color : s.background.color.InBytes
  borderRadius : s.background.borderRadius ≤ Scalar.wordMax

/-! ## §2. Types and checks together. -/

/-- A region of even sides, none below two, that does not reach over a side of the frame
smaller than the largest word. -/
structure Region.CutsFrom (r : Region) (f : Frame) : Prop where
  width_even : r.width % 2 = 0
  height_even : r.height % 2 = 0
  two_le_width : 2 ≤ r.width
  two_le_height : 2 ≤ r.height
  right : f.width < Scalar.wordMax → r.x + r.width ≤ f.width
  bottom : f.height < Scalar.wordMax → r.y + r.height ≤ f.height

/-- Below the largest word no edge is cut off: a region that fits has its right edge inside. -/
theorem Region.right_le {r : Region} {f : Frame} (h : r.fitsWithin f = true)
    (hwidth : f.width < Scalar.wordMax) : r.x + r.width ≤ f.width := by
  unfold fitsWithin at h
  rw [Bool.and_eq_true, decide_eq_true_eq] at h
  have hright : min (r.x + r.width) Scalar.wordMax ≤ f.width := h.1
  omega

/-- Below the largest word, a region that fits has its lower edge inside. -/
theorem Region.bottom_le {r : Region} {f : Frame} (h : r.fitsWithin f = true)
    (hheight : f.height < Scalar.wordMax) : r.y + r.height ≤ f.height := by
  unfold fitsWithin at h
  rw [Bool.and_eq_true, decide_eq_true_eq, decide_eq_true_eq] at h
  have hbottom : min (r.y + r.height) Scalar.wordMax ≤ f.height := h.2
  omega

variable {α : Type} [Scalar α]

/-- Everything that holds of an edit. -/
structure Specification.Valid (s : Specification α) : Prop where
  typed : s.Typed
  duration_finite : Scalar.isFinite s.source.duration = true
  duration_pos : 0 < s.source.duration
  two_le_width : 2 ≤ s.source.width
  two_le_height : 2 ≤ s.source.height
  trim_finite : Scalar.isFinite s.trim.start = true ∧ Scalar.isFinite s.trim.stop = true
  trim_start : 0 ≤ s.trim.start
  trim_order : s.trim.start < s.trim.stop
  trim_stop : s.trim.stop ≤ s.source.duration + timeSlack
  crop : ∀ r ∈ s.crop, r.CutsFrom s.source.frame
  zoomIn : ∀ a ∈ s.zoom.start, s.crop.isSome = true ∧ Scalar.isFinite a = true
    ∧ s.trim.start - timeSlack ≤ a ∧ a ≤ s.trim.stop + timeSlack
  zoomOut : ∀ b ∈ s.zoom.stop, Scalar.isFinite b = true
    ∧ (∃ a, s.zoom.start = some a ∧ a + minZoomGap ≤ b + timeSlack)
    ∧ b ≤ s.trim.stop + timeSlack
  padding : 0 ≤ s.background.padding ∧ s.background.padding ≤ 0.5

/-- What the check of a clip promises. -/
theorem Clip.check_eq_ok [LawfulScalar α] {c : Clip α} (h : c.check = .ok ()) :
    Scalar.isFinite c.duration = true ∧ 0 < c.duration ∧ 2 ≤ c.width ∧ 2 ≤ c.height := by
  unfold check at h
  split_ifs at h with hduration hsides
  rw [Bool.or_eq_true, not_or, Bool.not_eq_true', Bool.not_eq_false, decide_eq_true_eq]
    at hduration
  rw [Bool.or_eq_true, decide_eq_true_eq, decide_eq_true_eq] at hsides
  have hzero : Scalar.isFinite (0 : α) = true :=
    LawfulScalar.isFinite_ofScientific (by decide) (by decide) false
  have hpos := LawfulScalar.lt_of_not_le hduration.1 hzero hduration.2
  exact ⟨hduration.1, hpos, by omega, by omega⟩

/-- **What has passed the checks, of parts of the right types, is valid.** -/
theorem Specification.Accepted.valid [LawfulScalar α] {s : Specification α} (h : s.Accepted)
    (htyped : s.Typed) : s.Valid := by
  obtain ⟨hfinite, hpos, hwidth, hheight⟩ := Clip.check_eq_ok h.source
  have htrim := h.trim
  unfold TrimRange.isValid at htrim
  simp only [Bool.and_eq_true, decide_eq_true_eq] at htrim
  obtain ⟨⟨⟨⟨hstartFinite, hstopFinite⟩, hstart⟩, horder⟩, hstop⟩ := htrim
  -- What is left are the crop, both markers and the padding.
  refine ⟨htyped, hfinite, hpos, hwidth, hheight, ⟨hstartFinite, hstopFinite⟩, hstart, horder,
    hstop, ?_, ?_, ?_, ?_⟩
  · intro r hr
    have hcrop := h.crop
    rw [hr, checkCrop_eq_ok] at hcrop
    obtain ⟨hfits, hdegenerate, heven⟩ := hcrop
    unfold Region.isDegenerate at hdegenerate
    unfold Region.isEven at heven
    rw [Bool.or_eq_false_iff, decide_eq_false_iff_not, decide_eq_false_iff_not] at hdegenerate
    rw [Bool.and_eq_true, decide_eq_true_eq, decide_eq_true_eq] at heven
    exact ⟨heven.1, heven.2, by omega, by omega, Region.right_le hfits, Region.bottom_le hfits⟩
  · intro a ha
    rcases ZoomWindow.check_zoom_iff.mp h.zoom with ⟨hnone, -⟩ | ⟨hcrop, a', ha', hfinite, hin, -⟩
    · rw [hnone] at ha
      exact nomatch ha
    · obtain rfl : a' = a := Option.some.inj (ha'.symm.trans ha)
      unfold TrimRange.contains at hin
      rw [Bool.and_eq_true, decide_eq_true_eq, decide_eq_true_eq] at hin
      exact ⟨hcrop, hfinite, hin⟩
  · intro b hb
    rcases ZoomWindow.check_zoom_iff.mp h.zoom with ⟨-, hnone⟩ | ⟨-, a, ha, -, -, hordered⟩
    · rw [hnone] at hb
      exact nomatch hb
    · have hb' := hordered b hb
      unfold ZoomWindow.isOrdered at hb'
      simp only [Bool.and_eq_true, decide_eq_true_eq] at hb'
      exact ⟨hb'.1.1, ⟨a, ha, hb'.1.2⟩, hb'.2⟩
  · have hpadding := h.background
    unfold Background.check at hpadding
    split_ifs at hpadding with hpad
    unfold Background.isPadding at hpad
    rw [Bool.and_eq_true, decide_eq_true_eq, decide_eq_true_eq] at hpad
    exact hpad

end GifEdit
