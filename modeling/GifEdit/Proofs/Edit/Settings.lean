/-
  GifEdit.Proofs.Edit.Settings
  ────────────────────────────
  **SETTINGS STAY USABLE, AND A LABEL KEEPS ITS WORD.**

  Settings are made in one of three ways and then changed by setters, in any order:

      made      the standard ones, given values, or those of a quality
      changed   one value, clamped to its span; the loop count; all values of a quality

  Two things hold from the start and through every change (`made_sound`, `change_sound`):
  each value lies in its span, and a label other than `custom` tells which values these are.
  The second needs a case of its own for the standard settings, which are labelled `high` but
  are not those of this quality.

  Main result: `settings_stay_usable`, for every run of changes.
-/
import GifEdit.Proofs.Edit.Codec

namespace GifEdit

/-! ## §1. Changes. -/

theorem Span.has_clamp {s : Span} (h : s.low ≤ s.high) (n : Nat) : s.Has (s.clamp n) := by
  unfold clamp Has
  split_ifs <;> omega

namespace ExportSettings

/-- A setter with its argument.  There are no loop counts but those on offer. -/
inductive Change where
  | fps (n : Nat)
  | width (n : Nat)
  | colors (n : Nat)
  | dither (n : Nat)
  | loopCount (l : LoopCount) (offered : l.count ∈ LoopCount.allowed)
  | quality (q : Quality)

/-- The settings after a change. -/
def change (e : ExportSettings) : Change → ExportSettings
  | .fps n => e.setFps n
  | .width n => e.setWidth n
  | .colors n => e.setColors n
  | .dither n => e.setDither n
  | .loopCount l _ => e.setLoopCount l
  | .quality q => e.applyQuality q

/-- The settings after changes in a row. -/
def changeAll (e : ExportSettings) (changes : List Change) : ExportSettings :=
  changes.foldl change e

/-- Settings that nothing has changed yet. -/
inductive Made : ExportSettings → Prop where
  | standard : Made .standard
  | values {α : Type} {fps width colors dither : Nat} {l : LoopCount} {e : ExportSettings}
      (offered : l.count ∈ LoopCount.allowed)
      (accepted : (ofValues fps width colors dither l : Except (EditError α) ExportSettings)
        = .ok e) : Made e
  | quality (q : Quality) : Made (ofQuality q)

/-! ## §2. What every change keeps. -/

/-- The values a quality stands for. -/
def values (e : ExportSettings) : Nat × Nat × Nat × Nat := (e.fps, e.width, e.colors, e.dither)

/-- A label other than `custom` stands for the values of its quality; and `high` may also
stand for the standard ones. -/
def LabelTells (e : ExportSettings) : Prop :=
  e.quality ≠ .custom →
    e.values = (ofQuality e.quality).values
      ∨ e.quality = .high ∧ e.values = standard.values

/-- Values in their spans, and a label that tells them. -/
structure Sound (e : ExportSettings) : Prop where
  inRange : e.InRange
  label : e.LabelTells

variable {e : ExportSettings}

/-- Whatever was set by hand is labelled so. -/
theorem labelTells_of_custom (h : e.quality = .custom) : e.LabelTells :=
  fun hlabel => absurd h hlabel

/-- The settings of every quality are in their ranges. -/
theorem inRange_ofQuality (q : Quality) : (ofQuality q).InRange := by
  cases q <;> exact ⟨⟨by decide, by decide⟩, ⟨by decide, by decide⟩, ⟨by decide, by decide⟩,
    ⟨by decide, by decide⟩, by decide⟩

/-- The settings of a quality, with whatever loop count. -/
theorem sound_ofQuality (q : Quality) {l : LoopCount} (hl : l.count ∈ LoopCount.allowed) :
    Sound { ofQuality q with loopCount := l } := by
  refine ⟨{ inRange_ofQuality q with loopCount := hl }, fun _ => .inl ?_⟩
  cases q <;> rfl

/-- Settings are sound when they are made. -/
theorem made_sound (h : Made e) : e.Sound := by
  cases h with
  | standard => exact ⟨inRange_standard, fun _ => .inr ⟨rfl, rfl⟩⟩
  | values hoffered haccepted =>
      obtain ⟨hfps, hwidth, hcolors, hdither, rfl⟩ := ofValues_eq_ok.mp haccepted
      exact ⟨⟨hfps, hwidth, hcolors, hdither, hoffered⟩, labelTells_of_custom rfl⟩
  | quality q => exact sound_ofQuality q (inRange_ofQuality q).loopCount

/-- **A change keeps every value in its span**… -/
theorem change_inRange (h : e.InRange) (c : Change) : (e.change c).InRange := by
  cases c with
  | fps n => exact { h with fps := Span.has_clamp (s := fpsSpan) (by decide) n }
  | width n => exact { h with width := Span.has_clamp (s := widthSpan) (by decide) n }
  | colors n => exact { h with colors := Span.has_clamp (s := colorsSpan) (by decide) n }
  | dither n => exact { h with dither := Span.has_clamp (s := ditherSpan) (by decide) n }
  | loopCount l hoffered => exact { h with loopCount := hoffered }
  | quality q => exact (sound_ofQuality q h.loopCount).inRange

/-- … and its label tells the values. -/
theorem change_sound (h : e.Sound) (c : Change) : (e.change c).Sound := by
  refine ⟨change_inRange h.inRange c, ?_⟩
  cases c with
  | quality q => exact (sound_ofQuality q h.inRange.loopCount).label
  | _ => exact labelTells_of_custom rfl

/-- No run of changes leads out of the ranges. -/
theorem changeAll_inRange (h : e.InRange) (changes : List Change) :
    (e.changeAll changes).InRange := by
  induction changes generalizing e with
  | nil => exact h
  | cons c changes ih => exact ih (change_inRange h c)

/-- **All changes.** -/
theorem changeAll_sound (h : e.Sound) (changes : List Change) : (e.changeAll changes).Sound := by
  induction changes generalizing e with
  | nil => exact h
  | cons c changes ih => exact ih (change_sound h c)

/-! ## §3. Loop counts. -/

/-- A quality does not say how often the GIF is played. -/
theorem loopCount_applyQuality (e : ExportSettings) (q : Quality) :
    (e.applyQuality q).loopCount = e.loopCount := rfl

/-- The loop count a change sets. -/
def Change.loopCount? : Change → Option LoopCount
  | .loopCount l _ => some l
  | _ => none

/-- **The loop count is the one that was set last**, whatever else was changed. -/
theorem loopCount_changeAll (e : ExportSettings) (changes : List Change) :
    (e.changeAll changes).loopCount
      = ((changes.filterMap Change.loopCount?).getLast?).getD e.loopCount := by
  induction changes generalizing e with
  | nil => rfl
  | cons c changes ih =>
      show ((e.change c).changeAll changes).loopCount = _
      rw [ih]
      cases c with
      | loopCount l hoffered =>
          have hset : Change.loopCount? (.loopCount l hoffered) = some l := rfl
          rw [List.filterMap_cons_some hset, List.getLast?_cons, Option.getD_some]
          rfl
      | _ => rfl

/-! ## §4. Runs of changes. -/

/-- **SETTINGS STAY USABLE.**  However settings were made and whatever was changed since, every
value lies in its span, the values are accepted again, and the settings are read back from
their own text.  A label of a quality tells the values of this quality, or `high` the standard
ones.  The loop count is the last one that was set; no quality changes it. -/
theorem settings_stay_usable {made : ExportSettings} (hmade : Made made) (changes : List Change) :
    let e := made.changeAll changes
    (fpsSpan.Has e.fps ∧ widthSpan.Has e.width ∧ colorsSpan.Has e.colors
        ∧ ditherSpan.Has e.dither)
      ∧ (∀ α : Type, (ofValues e.fps e.width e.colors e.dither e.loopCount :
          Except (EditError α) ExportSettings) = .ok { e with quality := .custom })
      ∧ Json.decodeDocument decode e.toJson.compactText = .ok e
      ∧ Json.decodeDocument decode e.toJson.indentedText = .ok e
      ∧ e.LabelTells
      ∧ e.loopCount = ((changes.filterMap Change.loopCount?).getLast?).getD made.loopCount
      ∧ ∀ q, (e.applyQuality q).loopCount = e.loopCount := by
  intro e
  obtain ⟨hrange, hlabel⟩ := changeAll_sound (made_sound hmade) changes
  have hcarries := carries hrange
  refine ⟨⟨hrange.fps, hrange.width, hrange.colors, hrange.dither⟩, fun α => ?_,
    hcarries.compactText, hcarries.indentedText, hlabel, loopCount_changeAll made changes,
    loopCount_applyQuality e⟩
  exact ofValues_eq_ok.mpr ⟨hrange.fps, hrange.width, hrange.colors, hrange.dither, rfl⟩

/-- Values beyond their spans on both sides, a quality in between and one at the end. -/
theorem settings_stay_usable_clamped :
    let once : LoopCount := ⟨-1⟩
    let edited := (ofQuality .high).changeAll
      [.width 2000, .quality .low, .fps 1, .loopCount once (by decide), .dither 9]
    edited = ⟨5, 480, 64, 5, once, .custom⟩
      ∧ Json.decodeDocument decode edited.toJson.compactText = .ok edited
      ∧ (edited.applyQuality .medium).loopCount = once := by
  intro once edited
  obtain ⟨-, -, htext, -, -, hloop, hquality⟩ := settings_stay_usable (.quality .high)
    [.width 2000, .quality .low, .fps 1, .loopCount once (by decide), .dither 9]
  exact ⟨by decide, htext, (hquality .medium).trans hloop⟩

end ExportSettings
end GifEdit
