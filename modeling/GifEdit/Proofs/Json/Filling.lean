/-
  GifEdit.Proofs.Json.Filling
  ───────────────────────────
  **WHAT IS GIVEN, AND DEFAULTS FOR THE REST.**

  Some records have a default for every field, so that an object says only what differs.
  A `Table` lists the fields of such a record without any decoder: under which key each is
  given, which trees give it which value, and where it stands.  In these terms

      `Table.Suits`  an object gives some fields, each once and each with a value of its type
      `Table.Fills`  a record has what the object gives, and is as the defaults are elsewhere

  One record at most fills a suitable object (`Table.Fills.unique`), and a schema that lays
  each field where the table has it decodes the object to that record
  (`Lays.exists_decode`).  A table is a field of a larger one (`Table.part`), so records of
  records need no theorem of their own.
-/
import GifEdit.Proofs.Json.Schemas
import Mathlib.Data.List.Nodup

namespace GifEdit.Json

/-! ## §1. Which trees give which values. -/

/-- A natural number of 32 bits. -/
def GivesWord (v : Json) (n : Nat) : Prop := v = nat n ∧ n ≤ Scalar.wordMax

/-- A whole number of 32 bits. -/
def GivesInteger (v : Json) (n : Int) : Prop :=
  v = .number (.whole n) ∧ -2147483648 ≤ n ∧ n ≤ 2147483647

/-- A number, with or without digits behind the point. -/
def GivesScalar {α : Type} [Scalar α] (v : Json) (x : α) : Prop :=
  ∃ n, v = .number n ∧ n.toScalar = x

/-- A value, or `null` for none. -/
def GivesOption {β : Type} (gives : Json → β → Prop) (v : Json) : Option β → Prop
  | none => v = .null
  | some b => gives v b

theorem GivesWord.decode {v : Json} {n : Nat} (h : GivesWord v n) : decodeWord v = .ok n := by
  obtain ⟨rfl, hn⟩ := h
  have hin : (0 ≤ (n : Int) && (n : Int) ≤ Scalar.wordMax) = true := by
    simpa using hn
  rw [decodeWord, nat, decodeWhole, if_pos hin]
  rfl

theorem GivesInteger.decode {v : Json} {n : Int} (h : GivesInteger v n) :
    decodeInteger v = .ok n := by
  obtain ⟨rfl, hlow, hhigh⟩ := h
  have hin : (-2147483648 ≤ n && n ≤ 2147483647) = true := by simp [hlow, hhigh]
  rw [decodeInteger, decodeWhole, if_pos hin]

theorem GivesScalar.decode {α : Type} [Scalar α] {v : Json} {x : α} (h : GivesScalar v x) :
    decodeScalar v = .ok x :=
  decodeScalar_eq_ok.mpr h

theorem decodeBool_of_gives {v : Json} {b : Bool} (h : v = .boolean b) : decodeBool v = .ok b := by
  rw [h, decodeBool]

theorem decodeString_of_gives {v : Json} {s : String} (h : v = .string s) :
    decodeString v = .ok s := by
  rw [h, decodeString, decodeText]

/-- An optional value is decoded if the value is, and if null does not give one. -/
theorem GivesOption.decode {β : Type} {decoder : Decoder β} {gives : Json → β → Prop} {v : Json}
    {o : Option β} (hdecode : ∀ {b}, gives v b → decoder v = .ok b) (hnull : ∀ b, ¬gives .null b)
    (h : GivesOption gives v o) : decodeOption decoder v = .ok o := by
  cases o with
  | none =>
      obtain rfl := h
      rfl
  | some b =>
      have hne : v ≠ .null := by
        rintro rfl
        exact hnull b h
      rw [decodeOption, hdecode h]
      · rfl
      · exact hne

/-- A record tells its fields and their order. -/
theorem record_injective : Function.Injective record := by
  intro entries entries' h
  have hmap := (Json.object.inj h).1
  refine List.map_injective_iff.mpr ?_ hmap
  rintro ⟨key, v⟩ ⟨key', v'⟩ heq
  simpa using heq

/-! ## §2. Tables of fields. -/

/-- A field of a record: the key it is given under, the values that trees give it, and where
it stands. -/
structure Slot (σ : Type) where
  key : String
  Value : Type
  Gives : Json → Value → Prop
  unique : ∀ {v : Json} {x y : Value}, Gives v x → Gives v y → x = y
  get : σ → Value

namespace Slot

variable {σ : Type}

/-- A field of natural numbers of 32 bits. -/
@[simp]
def word (key : String) (get : σ → Nat) : Slot σ where
  key := key
  Value := Nat
  Gives := GivesWord
  unique hx hy := Int.ofNat.inj (Numeral.whole.inj (Json.number.inj (hx.1.symm.trans hy.1)))
  get := get

/-- A field of whole numbers of 32 bits. -/
@[simp]
def integer (key : String) (get : σ → Int) : Slot σ where
  key := key
  Value := Int
  Gives := GivesInteger
  unique hx hy := Numeral.whole.inj (Json.number.inj (hx.1.symm.trans hy.1))
  get := get

/-- A field of numbers. -/
@[simp]
def scalar {α : Type} [Scalar α] (key : String) (get : σ → α) : Slot σ where
  key := key
  Value := α
  Gives := GivesScalar
  unique := by
    rintro v x y ⟨n, hn, rfl⟩ ⟨m, hm, rfl⟩
    rw [Json.number.inj (hn.symm.trans hm)]
  get := get

/-- A field of truth values. -/
@[simp]
def boolean (key : String) (get : σ → Bool) : Slot σ where
  key := key
  Value := Bool
  Gives v b := v = .boolean b
  unique hx hy := Json.boolean.inj (hx.symm.trans hy)
  get := get

/-- A field of strings. -/
@[simp]
def string (key : String) (get : σ → String) : Slot σ where
  key := key
  Value := String
  Gives v s := v = .string s
  unique hx hy := Json.string.inj (hx.symm.trans hy)
  get := get

end Slot

/-- All fields of a record, each under a key of its own. -/
structure Table (σ : Type) where
  slots : List (Slot σ)
  apart : (slots.map (·.key)).Nodup
  whole : ∀ {s t : σ}, (∀ f ∈ slots, f.get s = f.get t) → s = t

namespace Table

variable {σ : Type}

/-- Entries that give some fields a value: no key twice, a value of its type under the key of
a field, and under any other key a value that can be skipped. -/
structure Suits (table : Table σ) (entries : List (String × Json)) : Prop where
  once : (entries.map (·.1)).Nodup
  typed : ∀ f ∈ table.slots, ∀ v, (f.key, v) ∈ entries → ∃ x, f.Gives v x
  skipped : ∀ e ∈ entries, (∀ f ∈ table.slots, f.key ≠ e.1) → skippedFault? e.2 = none

/-- The record has what the entries give, and is as `base` is elsewhere. -/
def Fills (table : Table σ) (base : σ) (entries : List (String × Json)) (s : σ) : Prop :=
  ∀ f ∈ table.slots, (∀ v, (f.key, v) ∈ entries → f.Gives v (f.get s))
    ∧ ((∀ v, (f.key, v) ∉ entries) → f.get s = f.get base)

theorem Suits.tail {table : Table σ} {e : String × Json} {entries : List (String × Json)}
    (h : table.Suits (e :: entries)) : table.Suits entries :=
  ⟨(List.nodup_cons.mp h.once).2, fun f hf v hv => h.typed f hf v (List.mem_cons_of_mem _ hv),
    fun e he => h.skipped e (List.mem_cons_of_mem _ he)⟩

/-- No key is given twice. -/
theorem Suits.notMem {table : Table σ} {key : String} {v w : Json}
    {entries : List (String × Json)} (h : table.Suits ((key, v) :: entries)) :
    (key, w) ∉ entries := fun hw =>
  (List.nodup_cons.mp h.once).1 (List.mem_map_of_mem (f := (·.1)) hw)

theorem Fills.nil (table : Table σ) (base : σ) : table.Fills base [] base :=
  fun _ _ => ⟨nofun, fun _ => rfl⟩

/-- An entry of no field changes nothing. -/
theorem Fills.cons_of_foreign {table : Table σ} {base s : σ} {key : String} {v : Json}
    {entries : List (String × Json)} (hforeign : ∀ f ∈ table.slots, f.key ≠ key)
    (h : table.Fills base entries s) : table.Fills base ((key, v) :: entries) s := by
  intro g hg
  constructor
  · intro w hw
    rcases List.mem_cons.mp hw with heq | hw
    · exact absurd (Prod.mk.inj heq).1 (hforeign g hg)
    · exact (h g hg).1 w hw
  · intro hnot
    exact (h g hg).2 fun w hw => hnot w (List.mem_cons_of_mem _ hw)

/-- An entry of a field puts its value there, and the later ones fill what that leaves. -/
theorem Fills.cons_of_field {table : Table σ} {base base' s : σ} {f : Slot σ} {v : Json}
    {entries : List (String × Json)} (hf : f ∈ table.slots)
    (hsuits : table.Suits ((f.key, v) :: entries)) (hgives : f.Gives v (f.get base'))
    (hother : ∀ g ∈ table.slots, g.key ≠ f.key → g.get base' = g.get base)
    (h : table.Fills base' entries s) : table.Fills base ((f.key, v) :: entries) s := by
  intro g hg
  -- The slot of this entry is given by no later one, and no other slot is given by it.
  by_cases hkey : g.key = f.key
  · obtain rfl : g = f := List.inj_on_of_nodup_map table.apart hg hf hkey
    have hkept : g.get s = g.get base' := (h g hg).2 fun w => hsuits.notMem
    refine ⟨fun w hw => ?_, fun hnot => absurd List.mem_cons_self (hnot v)⟩
    rcases List.mem_cons.mp hw with heq | hw
    · rw [(Prod.mk.inj heq).2, hkept]
      exact hgives
    · exact absurd hw hsuits.notMem
  · refine ⟨fun w hw => ?_, fun hnot => ?_⟩
    · rcases List.mem_cons.mp hw with heq | hw
      · exact absurd (Prod.mk.inj heq).1 hkey
      · exact (h g hg).1 w hw
    · rw [(h g hg).2 fun w hw => hnot w (List.mem_cons_of_mem _ hw)]
      exact hother g hg hkey

/-- **What is given and what is not make one record at most.** -/
theorem Fills.unique {table : Table σ} {base s t : σ} {entries : List (String × Json)}
    (hs : table.Fills base entries s) (ht : table.Fills base entries t) : s = t := by
  refine table.whole fun f hf => ?_
  by_cases hgiven : ∃ v, (f.key, v) ∈ entries
  · obtain ⟨v, hv⟩ := hgiven
    exact f.unique ((hs f hf).1 v hv) ((ht f hf).1 v hv)
  · have hnot : ∀ v, (f.key, v) ∉ entries := fun v hv => hgiven ⟨v, hv⟩
    rw [(hs f hf).2 hnot, (ht f hf).2 hnot]

/-- The tree is an object that suits the table, and the record is what it makes of `base`. -/
def Gives (table : Table σ) (base : σ) (v : Json) (s : σ) : Prop :=
  ∃ entries, v = record entries ∧ table.Suits entries ∧ table.Fills base entries s

/-- A part of a record that is given as an object of its own. -/
@[simp]
def part {τ : Type} (key : String) (table : Table τ) (base : τ) (get : σ → τ) : Slot σ where
  key := key
  Value := τ
  Gives := table.Gives base
  unique := by
    rintro v s t ⟨entries, hv, -, hs⟩ ⟨entries', hv', -, ht⟩
    obtain rfl := record_injective (hv.symm.trans hv')
    exact hs.unique ht
  get := get

end Table

/-! ## §3. Schemas that lay a table. -/

/-- A schema that decodes the fields of a table, each into its own place. -/
structure Lays {σ : Type} (schema : Schema σ σ) (table : Table σ) : Prop where
  keys : schema.fields.map (·.1) = table.slots.map (·.key)
  finish : schema.finish = .ok
  put : ∀ f ∈ table.slots, ∀ (state : σ) {v : Json} {x : f.Value}, f.Gives v x →
    ∃ state', schema.put state f.key v = .ok state' ∧ f.get state' = x
      ∧ ∀ g ∈ table.slots, g.key ≠ f.key → g.get state' = g.get state

namespace Lays

variable {σ : Type} {schema : Schema σ σ} {table : Table σ}

/-- A schema knows the keys of its table and no others. -/
theorem knows_iff (h : Lays schema table) {key : String} :
    schema.knows key = true ↔ ∃ f ∈ table.slots, f.key = key := by
  have hmem : key ∈ schema.fields.map (·.1) ↔ key ∈ table.slots.map (·.key) := by rw [h.keys]
  simpa [Schema.knows] using hmem

/-- **Entry by entry the state is filled.**  The induction is on the entries; the later ones
fill the state that the first was put into. -/
theorem exists_walkEntries (h : Lays schema table) {entries : List (String × Json)}
    (hsuits : table.Suits entries) (seen : List String)
    (hseen : ∀ e ∈ entries, e.1 ∉ seen) (state : σ) :
    ∃ s, schema.walkEntries seen state (entries.map fun e => (.ok e.1, e.2)) = .ok s
      ∧ table.Fills state entries s := by
  induction entries generalizing seen state with
  | nil => exact ⟨state, rfl, .nil table state⟩
  | cons e entries ih =>
      obtain ⟨key, v⟩ := e
      rw [List.forall_mem_cons] at hseen
      -- A known key is put into its slot; any other entry is skipped and fills nothing.
      by_cases hknown : ∃ f ∈ table.slots, f.key = key
      · obtain ⟨f, hf, rfl⟩ := hknown
        obtain ⟨x, hx⟩ := hsuits.typed f hf v List.mem_cons_self
        obtain ⟨state', hput, rfl, hother⟩ := h.put f hf state hx
        have hlater : ∀ e ∈ entries, e.1 ∉ f.key :: seen := by
          rintro ⟨key, w⟩ he hmem
          rcases List.mem_cons.mp hmem with rfl | hmem
          · exact hsuits.notMem he
          · exact hseen.2 (key, w) he hmem
        obtain ⟨s, hwalk, hfills⟩ := ih hsuits.tail (f.key :: seen) hlater state'
        refine ⟨s, ?_, hfills.cons_of_field hf hsuits hx hother⟩
        have hunseen : seen.contains f.key = false := by simpa using hseen.1
        rw [List.map_cons, Schema.walkEntries, if_pos (h.knows_iff.mpr ⟨f, hf, rfl⟩), hunseen,
          hput]
        exact hwalk
      · have hforeign : ∀ f ∈ table.slots, f.key ≠ key := fun f hf heq => hknown ⟨f, hf, heq⟩
        obtain ⟨s, hwalk, hfills⟩ := ih hsuits.tail seen hseen.2 state
        refine ⟨s, ?_, hfills.cons_of_foreign hforeign⟩
        have hfault : skippedFault? v = none :=
          hsuits.skipped (key, v) List.mem_cons_self hforeign
        rw [List.map_cons, Schema.walkEntries, if_neg (mt h.knows_iff.mp hknown), hfault]
        exact hwalk

/-- **A suitable object is decoded to what it makes of the start.** -/
theorem exists_decode (h : Lays schema table) (origin : Origin) {entries : List (String × Json)}
    (hsuits : table.Suits entries) :
    ∃ s, schema.decode origin (record entries) = .ok s
      ∧ table.Fills schema.start entries s := by
  obtain ⟨s, hwalk, hfills⟩ :=
    h.exists_walkEntries hsuits [] (fun _ _ => List.not_mem_nil) schema.start
  refine ⟨s, ?_, hfills⟩
  unfold record Schema.decode
  dsimp only
  rw [hwalk, h.finish]
  rfl

/-- An object that gives a record is decoded to it. -/
theorem decode_of_gives (h : Lays schema table) (origin : Origin) {v : Json} {s : σ}
    (hgives : table.Gives schema.start v s) : schema.decode origin v = .ok s := by
  obtain ⟨entries, rfl, hsuits, hs⟩ := hgives
  obtain ⟨t, hdecode, ht⟩ := h.exists_decode origin hsuits
  rw [hdecode, hs.unique ht]

end Lays

end GifEdit.Json
