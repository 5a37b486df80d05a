/-
  GifEdit.Proofs.Edit.Codec
  ─────────────────────────
  **EDITS, WRITTEN AND READ.**

  Encoders write what the types of an edit hold; decoders start from nothing and check all
  of it again.  For each type an edit is made of,

      `carries`     what its encoder writes is decoded to the same value, as long as its
                    numbers read back and its types hold
      `_of_decode`  what its decoder accepts has the right type, whatever the text

  so an accepted edit comes back whole, and no text makes an edit that was not accepted.
-/
import GifEdit.Edit.Codec
import GifEdit.Proofs.Edit.Validity
import GifEdit.Proofs.Json.Schemas

namespace GifEdit

open Json (Carries ReadsBack Schema)

variable {α : Type} [Scalar α] [Legible α]

/-! ## §1. What is written comes back. -/

/-- A trim comes back if it is valid in a clip without an end: the length of the clip is not known
where a trim is read. -/
theorem TrimRange.carries {t : TrimRange α} (hstart : ReadsBack t.start) (hstop : ReadsBack t.stop)
    (hvalid : isValid t.start t.stop Scalar.infinity = true) : Carries decode t.toJson t := by
  have hbounds : ofBounds t.start t.stop Scalar.infinity = .ok t := if_pos hvalid
  refine Schema.carries_record .text ⟨some t.start, some t.stop⟩ rfl (by simp [schema])
    (by simp [hstart.readable, hstop.readable]) ?_ ?_
  · simp [schema, hstart.decode, hstop.decode]
  · simp [schema, hbounds, Json.require, Json.refuse]

/-- A zoom window comes back, also the markers that are not set. -/
theorem ZoomWindow.carries {z : ZoomWindow α} (hstart : ∀ a ∈ z.start, ReadsBack a)
    (hstop : ∀ b ∈ z.stop, ReadsBack b) : Carries decode z.toJson z := by
  have hnull (x : α) : Json.decodeScalar .null ≠ .ok x := Json.decodeScalar_null
  have hstart' := Json.carries_optional hnull fun a ha => Json.carries_scalar (hstart a ha)
  have hstop' := Json.carries_optional hnull fun b hb => Json.carries_scalar (hstop b hb)
  refine Schema.carries_record .text z rfl (by simp [schema])
    (by simp [hstart'.readable, hstop'.readable]) ?_ rfl
  simp [schema, hstart'.decoded, hstop'.decoded]

/-- A loop count that is allowed comes back. -/
theorem LoopCount.carries {l : LoopCount} (h : l.count ∈ allowed) : Carries decode l.toJson l := by
  have hbounds : -2147483648 ≤ l.count ∧ l.count ≤ 2147483647 := by
    have hall : ∀ n ∈ allowed, -2147483648 ≤ n ∧ n ≤ 2147483647 := by decide
    exact hall l.count h
  have hcount : (ofInt l.count : Except (EditError Float) LoopCount) = .ok l :=
    ofInt_eq_ok.mpr ⟨h, rfl⟩
  refine (Json.carries_integer hbounds.1 hbounds.2).map ?_
  rw [hcount]
  rfl

/-- A quality comes back by its name. -/
theorem Quality.carries (origin : Json.Origin) (q : Quality) :
    Carries (decode origin) q.toJson q := by
  refine ⟨Json.readable_string q.name, ?_⟩
  rw [toJson, Json.reread_string]
  cases q <;> rfl

/-- Settings in their ranges come back, with the quality that is written beside them. -/
theorem ExportSettings.carries {e : ExportSettings} (h : e.InRange) :
    Carries decode e.toJson e := by
  have hword {s : Span} {n : Nat} (hs : s.high ≤ Scalar.wordMax) (hn : s.Has n) :
      n ≤ Scalar.wordMax := le_trans hn.2 hs
  have hfps := Json.carries_word (hword (by decide) h.fps)
  have hwidth := Json.carries_word (hword (by decide) h.width)
  have hcolors := Json.carries_word (hword (by decide) h.colors)
  have hdither := Json.carries_word (hword (by decide) h.dither)
  have hloop := LoopCount.carries h.loopCount
  have hquality := Quality.carries .text e.quality
  have hvalues : (ofValues e.fps e.width e.colors e.dither e.loopCount :
      Except (EditError Float) ExportSettings) = .ok { e with quality := .custom } :=
    ofValues_eq_ok.mpr ⟨h.fps, h.width, h.colors, h.dither, rfl⟩
  refine Schema.carries_record .text ⟨some e.fps, some e.width, some e.colors, some e.dither,
    some e.loopCount, some e.quality⟩ rfl (by simp [schema]) ?_ ?_ ?_
  · simp [hfps.readable, hwidth.readable, hcolors.readable, hdither.readable, hloop.readable,
      hquality.readable]
  · simp [schema, hfps.decoded, hwidth.decoded, hcolors.decoded, hdither.decoded, hloop.decoded,
      hquality.decoded]
  · simp [schema, hvalues, Json.require, Json.refuse]

/-- A color of bytes comes back from its text. -/
theorem Color.carries {c : Color} (h : c.InBytes) : Carries decode c.toJson c := by
  refine (Json.carries_text "a string" c.text).map ?_
  rw [ofText_text h]
  rfl

/-- A backdrop comes back if its color and radius have their types. -/
theorem Background.carries {b : Background α} (hcolor : b.color.InBytes)
    (hpadding : ReadsBack b.padding) (hradius : b.borderRadius ≤ Scalar.wordMax) :
    Carries decode b.toJson b := by
  have hcolor' := Color.carries hcolor
  have hradius' := Json.carries_word hradius
  refine Schema.carries_record .text
    ⟨some b.enabled, some b.color, some b.padding, some b.borderRadius⟩ rfl (by simp [schema])
    ?_ ?_ rfl
  · simp [hcolor'.readable, hpadding.readable, hradius'.readable]
  · simp [schema, Json.decodeBool, hcolor'.decoded, hpadding.decode, hradius'.decoded]

theorem Clip.carries {c : Clip α} (hduration : ReadsBack c.duration)
    (hwidth : c.width ≤ Scalar.wordMax) (hheight : c.height ≤ Scalar.wordMax) :
    Carries decode c.toJson c := by
  have hwidth' := Json.carries_word hwidth
  have hheight' := Json.carries_word hheight
  refine Schema.carries_record .text
    ⟨some c.name, some c.duration, some c.width, some c.height⟩ rfl (by simp [schema]) ?_ ?_ rfl
  · simp [hduration.readable, hwidth'.readable, hheight'.readable]
  · simp [schema, Json.decodeString, Json.decodeText, hduration.decode, hwidth'.decoded,
      hheight'.decoded]

theorem Region.carries {r : Region} (h : r.InWords) : Carries decode r.toJson r := by
  have hx := Json.carries_word h.x
  have hy := Json.carries_word h.y
  have hwidth := Json.carries_word h.width
  have hheight := Json.carries_word h.height
  refine Schema.carries_record .text ⟨some r.x, some r.y, some r.width, some r.height⟩ rfl
    (by simp [rectangleSchema]) ?_ ?_ rfl
  · simp [hx.readable, hy.readable, hwidth.readable, hheight.readable]
  · simp [rectangleSchema, hx.decoded, hy.decoded, hwidth.decoded, hheight.decoded]

namespace Specification

/-- The numbers of an edit, apart from its whole numbers. -/
def numbers (s : Specification α) : List α :=
  [s.source.duration, s.trim.start, s.trim.stop, s.background.padding]
    ++ (s.zoom.start.toList ++ s.zoom.stop.toList)

omit [Legible α] in
/-- **The numbers of a valid edit are finite.** -/
theorem Valid.isFinite [LawfulScalar α] {s : Specification α} (h : s.Valid) :
    ∀ x ∈ s.numbers, Scalar.isFinite x = true := by
  have hzero : Scalar.isFinite (0 : α) = true :=
    LawfulScalar.isFinite_ofScientific (by decide) (by decide) false
  have hhalf : Scalar.isFinite (0.5 : α) = true :=
    LawfulScalar.isFinite_ofScientific (by decide) (by decide) true
  have hpadding := LawfulScalar.isFinite_of_mem hzero hhalf h.padding.1 h.padding.2
  intro x hx
  simp only [numbers, List.mem_append, List.mem_cons, List.not_mem_nil, or_false,
    Option.mem_toList] at hx
  rcases hx with (rfl | rfl | rfl | rfl) | hx | hx
  · exact h.duration_finite
  · exact h.trim_finite.1
  · exact h.trim_finite.2
  · exact hpadding
  · exact (h.zoomIn x hx).2.1
  · exact (h.zoomOut x hx).1

omit [Legible α] in
/-- A trim that fits its clip passes where there is no clip, too. -/
theorem Valid.isValid_infinity [LawfulScalar α] {s : Specification α} (h : s.Valid) :
    TrimRange.isValid s.trim.start s.trim.stop Scalar.infinity = true := by
  have hslack : Scalar.isFinite (timeSlack : α) = true :=
    LawfulScalar.isFinite_ofScientific (by decide) (by decide) true
  have hstop := LawfulScalar.le_infinity_add h.trim_finite.2 hslack
  unfold TrimRange.isValid
  simp only [Bool.and_eq_true, decide_eq_true_eq]
  exact ⟨⟨⟨h.trim_finite, h.trim_start⟩, h.trim_order⟩, hstop⟩

/-- **An accepted edit carries itself**, if its numbers read back. -/
theorem carries [LawfulScalar α] {s : Specification α} (h : s.Accepted) (htyped : s.Typed)
    (hnumbers : ∀ x ∈ s.numbers, ReadsBack x) : Carries decode s.toJson s := by
  have hvalid := h.valid htyped
  have hclip := Clip.carries (hnumbers s.source.duration (by simp [numbers])) htyped.width
    htyped.height
  have htrim := TrimRange.carries (hnumbers s.trim.start (by simp [numbers]))
    (hnumbers s.trim.stop (by simp [numbers])) hvalid.isValid_infinity
  have hcrop : Carries (Json.decodeOption Region.decode) (.optional Region.toJson s.crop) s.crop :=
    Json.carries_optional Schema.decode_null_ne_ok fun r hr => Region.carries (htyped.crop r hr)
  have hzoom : Carries ZoomWindow.decode s.zoom.toJson s.zoom :=
    ZoomWindow.carries
      (fun a ha => hnumbers a (by simp [numbers, Option.mem_def.mp ha]))
      (fun b hb => hnumbers b (by simp [numbers, Option.mem_def.mp hb]))
  have hexport := ExportSettings.carries htyped.exportSettings
  have hbackground := Background.carries htyped.color
    (hnumbers s.background.padding (by simp [numbers])) htyped.borderRadius
  refine Schema.carries_record .text ⟨some s.source, some s.trim, s.crop, s.zoom,
    s.exportSettings, s.background⟩ rfl (by simp [schema]) ?_ ?_ ?_
  · simp [hclip.readable, htrim.readable, hcrop.readable, hzoom.readable, hexport.readable,
      hbackground.readable]
  · simp [schema, hclip.decoded, htrim.decoded, hcrop.decoded, hzoom.decoded, hexport.decoded,
      hbackground.decoded]
  · simp [schema, ofParts_of_accepted h, Json.require, Json.refuse]

end Specification

/-! ## §2. What is read has its type. -/

omit [Scalar α] in
/-- The check of a value lets through what it does not refuse, unchanged. -/
theorem Json.refuse_eq_ok {β : Type} {x : Except (EditError α) β} {b : β} :
    Json.refuse x = .ok b ↔ x = .ok b := by
  cases x <;> simp [Json.refuse]

/-- Words, as far as they were found. -/
structure FoundSides.InWords (found : FoundSides Nat) : Prop where
  x : ∀ n ∈ found.x, n ≤ Scalar.wordMax
  y : ∀ n ∈ found.y, n ≤ Scalar.wordMax
  width : ∀ n ∈ found.width, n ≤ Scalar.wordMax
  height : ∀ n ∈ found.height, n ≤ Scalar.wordMax

/-- A number of a region is found as a word, and the others stay as they were found. -/
theorem FoundSides.inWords_put {found found' : FoundSides Nat} {key : String} {v : Json}
    (h : found.InWords)
    (hput : (rectangleSchema "struct SourceRect" Json.decodeWord Region.mk).put found key v
      = .ok found') : found'.InWords := by
  simp only [rectangleSchema] at hput
  split at hput
  all_goals
    obtain ⟨n, hn, rfl⟩ := bind_pure_eq_ok.mp hput
    have hle : ∀ m ∈ some n, m ≤ Scalar.wordMax :=
      Json.forall_mem_some (Json.le_of_decodeWord hn)
  · exact ⟨hle, h.y, h.width, h.height⟩
  · exact ⟨h.x, hle, h.width, h.height⟩
  · exact ⟨h.x, h.y, hle, h.height⟩
  · exact ⟨h.x, h.y, h.width, hle⟩

/-- A region that is read is made of words. -/
theorem Region.inWords_of_decode {v : Json} {r : Region} (h : decode v = .ok r) : r.InWords := by
  obtain ⟨found, hfound, hfinish⟩ :=
    Schema.invariant ⟨nofun, nofun, nofun, nofun⟩ FoundSides.inWords_put h
  simp only [rectangleSchema, bind_eq_ok, Json.require_eq_ok] at hfinish
  obtain ⟨x, hx, y, hy, width, hwidth, height, hheight, hr⟩ := hfinish
  obtain rfl := Except.ok.inj hr
  exact ⟨hfound.x x hx, hfound.y y hy, hfound.width width hwidth, hfound.height height hheight⟩

/-- The sides of a clip, as far as they were found. -/
structure FoundClip.InWords (found : FoundClip α) : Prop where
  width : ∀ n ∈ found.width, n ≤ Scalar.wordMax
  height : ∀ n ∈ found.height, n ≤ Scalar.wordMax

omit [Legible α] in
/-- A side of a clip is found as a word. -/
theorem FoundClip.inWords_put {found found' : FoundClip α} {key : String} {v : Json}
    (h : found.InWords) (hput : Clip.schema.put found key v = .ok found') : found'.InWords := by
  simp only [Clip.schema] at hput
  split at hput
  all_goals
    obtain ⟨n, hn, rfl⟩ := bind_pure_eq_ok.mp hput
  · exact ⟨h.width, h.height⟩
  · exact ⟨h.width, h.height⟩
  · exact ⟨Json.forall_mem_some (Json.le_of_decodeWord hn), h.height⟩
  · exact ⟨h.width, Json.forall_mem_some (Json.le_of_decodeWord hn)⟩

omit [Legible α] in
/-- A clip that is read has sides of its type. -/
theorem Clip.inWords_of_decode {v : Json} {c : Clip α} (h : decode v = .ok c) :
    c.width ≤ Scalar.wordMax ∧ c.height ≤ Scalar.wordMax := by
  obtain ⟨found, hfound, hfinish⟩ :=
    Schema.invariant ⟨nofun, nofun⟩ FoundClip.inWords_put h
  simp only [schema, bind_eq_ok, Json.require_eq_ok] at hfinish
  obtain ⟨_, -, _, -, width, hwidth, height, hheight, hc⟩ := hfinish
  obtain rfl := Except.ok.inj hc
  exact ⟨hfound.width width hwidth, hfound.height height hheight⟩

/-- A loop count that is read is allowed. -/
theorem LoopCount.mem_allowed_of_decode {v : Json} {l : LoopCount} (h : decode v = .ok l) :
    l.count ∈ allowed := by
  obtain ⟨n, -, h⟩ := bind_eq_ok.mp h
  rw [Json.refuse_eq_ok, ofInt_eq_ok] at h
  obtain ⟨hmem, rfl⟩ := h
  exact hmem

/-- Whatever field of the settings is found, its loop count is allowed. -/
theorem FoundSettings.loopCount_put {found found' : FoundSettings} {key : String} {v : Json}
    (h : ∀ l ∈ found.loopCount, l.count ∈ LoopCount.allowed)
    (hput : ExportSettings.schema.put found key v = .ok found') :
    ∀ l ∈ found'.loopCount, l.count ∈ LoopCount.allowed := by
  simp only [ExportSettings.schema] at hput
  split at hput
  case h_5 =>
    obtain ⟨l, hl, rfl⟩ := bind_pure_eq_ok.mp hput
    exact Json.forall_mem_some (LoopCount.mem_allowed_of_decode hl)
  all_goals
    obtain ⟨n, hn, rfl⟩ := bind_pure_eq_ok.mp hput
    exact h

/-- Settings that are read are in their ranges. -/
theorem ExportSettings.inRange_of_decode {v : Json} {e : ExportSettings} (h : decode v = .ok e) :
    e.InRange := by
  obtain ⟨found, hfound, hfinish⟩ := Schema.invariant nofun FoundSettings.loopCount_put h
  simp only [schema, bind_eq_ok, Json.require_eq_ok, Json.refuse_eq_ok, ofValues_eq_ok] at hfinish
  obtain ⟨fps, -, width, -, colors, -, dither, -, quality, -, settings, hsettings, he⟩ := hfinish
  obtain ⟨hfps, hwidth, hcolors, hdither, rfl⟩ := hsettings
  obtain rfl := Except.ok.inj he
  refine ⟨hfps, hwidth, hcolors, hdither, ?_⟩
  show (found.loopCount.getD .forever).count ∈ LoopCount.allowed
  cases hloop : found.loopCount with
  | none => exact inRange_standard.loopCount
  | some l => exact hfound l hloop

theorem Color.inBytes_of_decode {v : Json} {c : Color} (h : decode v = .ok c) : c.InBytes := by
  obtain ⟨s, -, h⟩ := bind_eq_ok.mp h
  exact inBytes_of_ofText (Json.refuse_eq_ok.mp h)

/-- Color and radius of a backdrop, as far as they were found. -/
structure FoundBackground.Typed (found : FoundBackground α) : Prop where
  color : ∀ c ∈ found.color, c.InBytes
  borderRadius : ∀ n ∈ found.borderRadius, n ≤ Scalar.wordMax

omit [Legible α] in
/-- The color and the radius of a backdrop are found with their types. -/
theorem FoundBackground.typed_put {found found' : FoundBackground α} {key : String} {v : Json}
    (h : found.Typed) (hput : Background.schema.put found key v = .ok found') : found'.Typed := by
  simp only [Background.schema] at hput
  split at hput
  all_goals
    obtain ⟨n, hn, rfl⟩ := bind_pure_eq_ok.mp hput
  · exact ⟨h.color, h.borderRadius⟩
  · exact ⟨Json.forall_mem_some (Color.inBytes_of_decode hn), h.borderRadius⟩
  · exact ⟨h.color, h.borderRadius⟩
  · exact ⟨h.color, Json.forall_mem_some (Json.le_of_decodeWord hn)⟩

omit [Legible α] in
/-- A backdrop that is read has its types. -/
theorem Background.typed_of_decode {v : Json} {b : Background α} (h : decode v = .ok b) :
    b.color.InBytes ∧ b.borderRadius ≤ Scalar.wordMax := by
  obtain ⟨found, hfound, hfinish⟩ := Schema.invariant ⟨nofun, nofun⟩ FoundBackground.typed_put h
  simp only [schema, bind_eq_ok, Json.require_eq_ok] at hfinish
  obtain ⟨_, -, color, hcolor, _, -, radius, hradius, hb⟩ := hfinish
  obtain rfl := Except.ok.inj hb
  exact ⟨hfound.color color hcolor, hfound.borderRadius radius hradius⟩

/-- What the types of an edit hold, as far as they were found. -/
structure FoundEdit.Typed (found : FoundEdit α) : Prop where
  source : ∀ c ∈ found.source, c.width ≤ Scalar.wordMax ∧ c.height ≤ Scalar.wordMax
  crop : ∀ r ∈ found.crop, r.InWords
  exportSettings : found.exportSettings.InRange
  color : found.background.color.InBytes
  borderRadius : found.background.borderRadius ≤ Scalar.wordMax

omit [Legible α] in
theorem FoundEdit.typed_start : FoundEdit.Typed (α := α) {} where
  source := nofun
  crop := nofun
  exportSettings := ExportSettings.inRange_standard
  color := (⟨by decide, by decide, by decide⟩ : Color.InBytes ⟨0x29, 0x29, 0x29⟩)
  borderRadius := (by decide : 16 ≤ Scalar.wordMax)

/-- Every part of an edit is found with its types. -/
theorem FoundEdit.typed_put {found found' : FoundEdit α} {key : String} {v : Json}
    (h : found.Typed) (hput : Specification.schema.put found key v = .ok found') :
    found'.Typed := by
  simp only [Specification.schema] at hput
  split at hput
  all_goals
    obtain ⟨part, hpart, rfl⟩ := bind_pure_eq_ok.mp hput
  · exact { h with source := Json.forall_mem_some (Clip.inWords_of_decode hpart) }
  · exact { h with }
  · exact { h with
      crop := fun r hr => Region.inWords_of_decode (Json.decodeOption_eq_ok hpart r hr) }
  · exact { h with }
  · exact { h with exportSettings := ExportSettings.inRange_of_decode hpart }
  · have hb := Background.typed_of_decode hpart
    exact { h with color := hb.1, borderRadius := hb.2 }

/-- **Whatever is read as an edit has passed its checks, and has its types.** -/
theorem Specification.accepted_of_decode {v : Json} {s : Specification α} (h : decode v = .ok s) :
    s.Accepted ∧ s.Typed := by
  obtain ⟨found, hfound, hfinish⟩ := Schema.invariant FoundEdit.typed_start FoundEdit.typed_put h
  simp only [schema, bind_eq_ok, Json.require_eq_ok, Json.refuse_eq_ok] at hfinish
  obtain ⟨source, hsource, trim, -, hs⟩ := hfinish
  refine ⟨accepted_of_ofParts hs, ?_⟩
  rw [eq_of_ofParts hs]
  exact ⟨(hfound.source source hsource).1, (hfound.source source hsource).2, hfound.crop,
    hfound.exportSettings, hfound.color, hfound.borderRadius⟩

end GifEdit
