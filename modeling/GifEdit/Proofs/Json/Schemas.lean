/-
  GifEdit.Proofs.Json.Schemas
  ───────────────────────────
  **RECORDS, THERE AND BACK.**

  Every structured type is decoded through a schema, and encoded as a record of the
  schema's fields.  Two facts about schemas serve all of them:

      an own record      is decoded field by field, then finished (`decode_record`)
      any text at all    that is decoded was finished, and what the fields preserve held
                         before (`invariant`)

  The first makes a round trip out of the round trips of the fields, the second a property
  of everything decoded out of a property of every field.  `Carries` is the round trip of a
  single value; it does not mention the layout of the text.
-/
import GifEdit.Proofs.Json.Written

namespace GifEdit.Json

/-! ## §1. Round trips. -/

/-- What is written of a tree, in either layout, is decoded to a value. -/
structure Carries {β : Type} (decode : Decoder β) (v : Json) (b : β) : Prop where
  readable : v.Readable
  decoded : decode v.reread = .ok b

namespace Carries

variable {β : Type} {decode : Decoder β} {v : Json} {b : β}

/-- What a value carries is decoded from its compact text. -/
theorem compactText (h : Carries decode v b) : decodeDocument decode v.compactText = .ok b := by
  rw [decodeDocument_compactText decode h.readable, h.decoded]

/-- It is decoded from its indented text as well. -/
theorem indentedText (h : Carries decode v b) :
    decodeDocument decode v.indentedText = .ok b := by
  rw [decodeDocument_indentedText decode h.readable, h.decoded]

/-- A checked value carries what its unchecked part does, if it passes. -/
theorem map {γ : Type} {f : β → Except Problem γ} {c : γ} (h : Carries decode v b)
    (hf : f b = .ok c) : Carries (fun v => decode v >>= f) v c := by
  refine ⟨h.readable, ?_⟩
  show decode v.reread >>= f = .ok c
  rw [h.decoded]
  exact hf

end Carries

section

variable {α : Type} [Scalar α] [Legible α]

theorem carries_scalar {x : α} (h : ReadsBack x) : Carries decodeScalar (scalar x) x :=
  ⟨h.readable, h.decode⟩

end

/-- A whole number carries itself within the range that is asked for. -/
theorem carries_whole {low high n : Int} (expected : String) (hlow : low ≤ n) (hhigh : n ≤ high)
    (hword : -2147483648 ≤ n ∧ n ≤ Scalar.wordMax) :
    Carries (decodeWhole low high expected) (.number (.whole n)) n := by
  have hleaf := readsLeaf_word hword.1 hword.2
  refine ⟨readable_of_readsLeaf hleaf, ?_⟩
  have hin : (low ≤ n && n ≤ high) = true := by simp [hlow, hhigh]
  rw [reread, rereadNumeral_of_readsLeaf hleaf, decodeWhole, if_pos hin]

/-- A word carries a number of 32 bits. -/
theorem carries_word {n : Nat} (h : n ≤ Scalar.wordMax) : Carries decodeWord (nat n) n := by
  have hwhole := carries_whole "u32" (Int.natCast_nonneg n) (Int.ofNat_le.mpr h)
    ⟨by omega, Int.ofNat_le.mpr h⟩
  refine ⟨hwhole.readable, ?_⟩
  show (decodeWhole 0 Scalar.wordMax "u32" (nat n).reread).map Int.toNat = .ok n
  rw [nat, hwhole.decoded]
  rfl

theorem carries_integer {n : Int} (hlow : -2147483648 ≤ n) (hhigh : n ≤ 2147483647) :
    Carries decodeInteger (.number (.whole n)) n := by
  have hword : (Scalar.wordMax : Int) = 4294967295 := rfl
  exact carries_whole "i32" hlow hhigh ⟨hlow, by omega⟩

theorem carries_text (expected : String) (s : String) :
    Carries (decodeText expected) (.string s) s :=
  ⟨readable_string s, by rw [reread_string, decodeText]⟩

/-- An optional value, if `null` is not taken for one that is there. -/
theorem carries_optional {β : Type} {decode : Decoder β} {encode : β → Json} {o : Option β}
    (hnull : ∀ b, decode .null ≠ .ok b) (h : ∀ b ∈ o, Carries decode (encode b) b) :
    Carries (decodeOption decode) (optional encode o) o := by
  cases o with
  | none =>
      refine ⟨readable_null, ?_⟩
      rw [optional, reread_null, decodeOption]
  | some b =>
      have hb := h b rfl
      refine ⟨hb.readable, ?_⟩
      show decodeOption decode (encode b).reread = .ok (some b)
      rw [decodeOption, hb.decoded]
      · rfl
      · intro heq
        have hdecoded := hb.decoded
        rw [heq] at hdecoded
        exact hnull b hdecoded

/-! ## §2. Own records. -/

namespace Schema

variable {σ β : Type} {schema : Schema σ β}

/-- A record with known keys, each once, has its fields put one after the other. -/
theorem walkEntries_record {fields : List (String × Json)}
    (hknown : ∀ f ∈ fields, schema.knows f.1 = true) (hnodup : (fields.map (·.1)).Nodup)
    {seen : List String} (hseen : ∀ f ∈ fields, f.1 ∉ seen) (state : σ) :
    schema.walkEntries seen state (fields.map fun f => (.ok f.1, f.2))
      = fields.foldlM (fun state f => schema.put state f.1 f.2) state := by
  induction fields generalizing seen state with
  | nil => rfl
  | cons f fields ih =>
      rw [List.forall_mem_cons] at hknown hseen
      rw [List.map_cons, List.nodup_cons] at hnodup
      have hfresh : seen.contains f.1 = false := by simpa using hseen.1
      have hlater : ∀ g ∈ fields, g.1 ∉ f.1 :: seen := by
        intro g hg hmem
        rcases List.mem_cons.mp hmem with heq | hmem
        · exact hnodup.1 (heq ▸ List.mem_map_of_mem hg)
        · exact hseen.2 g hg hmem
      rw [List.map_cons, walkEntries, if_pos hknown.1, hfresh, List.foldlM_cons]
      simp only [ih hknown.2 hnodup.2 hlater]
      rfl

/-- **A record of the fields of a schema is decoded field by field.** -/
theorem decode_record (origin : Origin) {fields : List (String × Json)}
    (hfields : fields.map (·.1) = schema.fields.map (·.1))
    (hnodup : (schema.fields.map (·.1)).Nodup) :
    schema.decode origin (record fields)
      = fields.foldlM (fun state f => schema.put state f.1 f.2) schema.start >>= schema.finish := by
  have hknown : ∀ f ∈ fields, schema.knows f.1 = true := by
    intro f hf
    have hmem : f.1 ∈ schema.fields.map (·.1) := hfields ▸ List.mem_map_of_mem hf
    obtain ⟨g, hg, heq⟩ := List.mem_map.mp hmem
    exact List.any_eq_true.mpr ⟨g, hg, beq_iff_eq.mpr heq⟩
  unfold record decode
  dsimp only
  rw [walkEntries_record hknown (hfields ▸ hnodup) fun _ _ => List.not_mem_nil]
  rfl

/-- A record carries what its fields are put together to. -/
theorem carries_record (origin : Origin) (state : σ) {fields : List (String × Json)}
    (hfields : fields.map (·.1) = schema.fields.map (·.1))
    (hnodup : (schema.fields.map (·.1)).Nodup) (hreadable : ∀ f ∈ fields, f.2.Readable) {b : β}
    (hput : fields.foldlM (fun state f => schema.put state f.1 f.2.reread) schema.start
      = .ok state)
    (hfinish : schema.finish state = .ok b) :
    Carries (schema.decode origin) (record fields) b := by
  refine ⟨(readable_record fields).mpr hreadable, ?_⟩
  rw [reread_record, decode_record origin (by rw [List.map_map]; exact hfields) hnodup,
    List.foldlM_map, hput]
  exact hfinish

/-! ## §3. Whatever is decoded. -/

/-- What every field keeps is kept by all entries of an object. -/
theorem invariant_walkEntries {P : σ → Prop}
    (hput : ∀ {state key v state'}, P state → schema.put state key v = .ok state' → P state')
    {seen : List String} {state state' : σ} {entries : List (Key × Json)} (hstate : P state)
    (h : schema.walkEntries seen state entries = .ok state') : P state' := by
  -- By induction on the entries: a known one is put, and any other leaves the state alone.
  induction entries generalizing seen state with
  | nil =>
      obtain rfl := Except.ok.inj h
      exact hstate
  | cons entry entries ih =>
      obtain ⟨key, v⟩ := entry
      cases key with
      | error fault => exact nomatch h
      | ok key =>
          rw [walkEntries] at h
          split at h
          · split at h
            · exact nomatch h
            · obtain ⟨next, hnext, h⟩ := bind_eq_ok.mp h
              exact ih (hput hstate hnext) h
          · obtain ⟨-, -, h⟩ := bind_eq_ok.mp h
            exact ih hstate h

/-- What every field keeps is kept by all items of an array that stands for a record. -/
theorem invariant_walkItems {P : σ → Prop}
    (hput : ∀ {state key v state'}, P state → schema.put state key v = .ok state' → P state')
    {ending : Ending} {count : Nat} {state state' : σ} {fields : List (String × Bool)}
    {items left : List Json} (hstate : P state)
    (h : schema.walkItems ending count state fields items = .ok (state', left)) : P state' := by
  -- By induction on the fields, as the items may run out before them.
  induction fields generalizing count state items with
  | nil =>
      rw [walkItems] at h
      obtain ⟨rfl, -⟩ := Prod.mk.inj (Except.ok.inj h)
      exact hstate
  | cons field fields ih =>
      obtain ⟨key, optional⟩ := field
      cases items with
      | nil =>
          rw [walkItems] at h
          obtain ⟨-, -, h⟩ := bind_eq_ok.mp h
          split at h
          · exact ih hstate h
          · exact nomatch h
      | cons v items =>
          rw [walkItems] at h
          obtain ⟨next, hnext, h⟩ := bind_eq_ok.mp h
          exact ih (hput hstate hnext) h

/-- **What starts true and is kept by every field is true of whatever is finished**, in the
form of an object or of an array. -/
theorem invariant {P : σ → Prop} (hstart : P schema.start)
    (hput : ∀ {state key v state'}, P state → schema.put state key v = .ok state' → P state')
    {origin : Origin} {v : Json} {b : β} (h : schema.decode origin v = .ok b) :
    ∃ state, P state ∧ schema.finish state = .ok b := by
  unfold decode at h
  split at h
  · obtain ⟨state, hwalk, h⟩ := bind_eq_ok.mp h
    obtain ⟨-, -, h⟩ := bind_eq_ok.mp h
    exact ⟨state, invariant_walkEntries hput hstart hwalk, h⟩
  · obtain ⟨⟨state, left⟩, hwalk, h⟩ := bind_eq_ok.mp h
    obtain ⟨-, -, h⟩ := bind_eq_ok.mp h
    obtain ⟨-, -, h⟩ := bind_eq_ok.mp h
    exact ⟨state, invariant_walkItems hput hstart hwalk, h⟩
  · exact absurd h mismatch_ne_ok

theorem decode_null_ne_ok {origin : Origin} (b : β) : schema.decode origin .null ≠ .ok b := by
  show mismatch schema.name .null ≠ .ok b
  exact mismatch_ne_ok

end Schema

/-! ## §4. Single values. -/

theorem require_eq_ok {β : Type} {name : String} {o : Option β} {b : β} :
    require name o = .ok b ↔ o = some b := by
  cases o <;> simp [require]

/-- What is true of a value is true of what was found, if that is the value. -/
theorem forall_mem_some {β : Type} {P : β → Prop} {b : β} (h : P b) : ∀ c ∈ some b, P c := by
  intro c hc
  obtain rfl := Option.some.inj hc
  exact h

/-- A whole number that is decoded is in its range. -/
theorem bounds_of_decodeWhole {low high n : Int} {expected : String} {v : Json}
    (h : decodeWhole low high expected v = .ok n) : low ≤ n ∧ n ≤ high := by
  unfold decodeWhole at h
  split at h
  · split_ifs at h with hin
    obtain rfl := Except.ok.inj h
    simpa using hin
  · exact absurd h mismatch_ne_ok

/-- A word that is decoded has 32 bits. -/
theorem le_of_decodeWord {v : Json} {n : Nat} (h : decodeWord v = .ok n) :
    n ≤ Scalar.wordMax := by
  obtain ⟨m, hm, rfl⟩ := map_eq_ok.mp h
  have hbounds := bounds_of_decodeWhole hm
  omega

/-- What is decoded as given is decoded as what is given. -/
theorem decodeOption_eq_ok {β : Type} {decode : Decoder β} {v : Json} {o : Option β}
    (h : decodeOption decode v = .ok o) : ∀ b ∈ o, decode v = .ok b := by
  unfold decodeOption at h
  split at h
  · obtain rfl := Except.ok.inj h
    exact nofun
  · obtain ⟨b, hb, rfl⟩ := map_eq_ok.mp h
    intro c hc
    rw [hb, Option.some.inj hc]

end GifEdit.Json
