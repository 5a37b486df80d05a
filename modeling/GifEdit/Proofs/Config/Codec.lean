/-
  GifEdit.Proofs.Config.Codec
  ───────────────────────────
  **CONFIGURATIONS, WRITTEN IN FULL AND GIVEN IN PART.**

  A configuration is written with every field, and it may be read with any of them missing,
  in a section or with the section.  Encoders and decoders of the sections are separate code,
  so both ways are followed:

      in full   what was saved is loaded as it was, if its numbers are printed so that they
                read back (`Config.carries`)
      in part   what is given and the defaults make one configuration, and an object is
                decoded to it (`Config.lays`)

  The second is said by tables of the fields, which know nothing of the decoders.
-/
import GifEdit.Config.Codec
import GifEdit.Proofs.Config.Gaps
import GifEdit.Proofs.Files.Saving
import GifEdit.Proofs.Json.Filling

namespace GifEdit

open Json (Carries Lays ReadsBack Schema Slot Table)

/-! ## §1. Written in full. -/

/-- The whole numbers have 32 bits. -/
structure ExportDefaults.InWords (d : ExportDefaults) : Prop where
  fps : d.fps ≤ Scalar.wordMax
  width : d.width ≤ Scalar.wordMax
  colors : d.colors ≤ Scalar.wordMax
  dither : d.dither ≤ Scalar.wordMax
  loopCount_low : -2147483648 ≤ d.loopCount
  loopCount_high : d.loopCount ≤ 2147483647

/-- The defaults of an export come back if they are words. -/
theorem ExportDefaults.carries {d : ExportDefaults} (h : d.InWords) :
    Carries (schema.decode .text) d.toJson d := by
  have hfps := Json.carries_word h.fps
  have hwidth := Json.carries_word h.width
  have hcolors := Json.carries_word h.colors
  have hdither := Json.carries_word h.dither
  have hloop := Json.carries_integer h.loopCount_low h.loopCount_high
  refine Schema.carries_record .text d rfl (by simp [schema]) ?_ ?_ rfl
  · simp [hfps.readable, hwidth.readable, hcolors.readable, hdither.readable, hloop.readable]
  · simp [schema, hfps.decoded, hwidth.decoded, hcolors.decoded, hdither.decoded, hloop.decoded]

theorem Engine.carries (e : Engine) : Carries (schema.decode .text) e.toJson e :=
  Schema.carries_record .text e rfl (by simp [schema]) (by simp)
    (by simp [schema, Json.decodeString, Json.decodeText]) rfl

theorem Path.carries (p : Path) : Carries decode p.toJson p := by
  refine ⟨Json.readable_string p.text, ?_⟩
  rw [toJson, Json.reread_string]
  rfl

/-- No path is decoded from null, so that null can stand for none. -/
theorem Path.decode_null_ne_ok (p : Path) : decode .null ≠ .ok p := nofun

/-- The settings of the log come back, with a file or without one. -/
theorem Logging.carries (l : Logging) : Carries (schema.decode .text) l.toJson l := by
  have hfile : Carries (Json.decodeOption Path.decode) (.optional Path.toJson l.file) l.file :=
    Json.carries_optional Path.decode_null_ne_ok fun p _ => p.carries
  refine Schema.carries_record .text l rfl (by simp [schema]) (by simp [hfile.readable]) ?_ rfl
  simp [schema, Json.decodeString, Json.decodeText, Json.decodeBool, hfile.decoded]

variable {α : Type} [Scalar α]

section

variable [Legible α]

/-- The tuning comes back if each of its numbers does. -/
theorem Interaction.carries {i : Interaction α} (h : ∀ x ∈ i.numbers, ReadsBack x) :
    Carries (schema.decode .text) i.toJson i := by
  simp only [numbers, List.forall_mem_cons] at h
  obtain ⟨hhandle, hcrop, hmarker, htrim, hzoom, -⟩ := h
  refine Schema.carries_record .text i rfl (by simp [schema]) ?_ ?_ rfl
  · simp [hhandle.readable, hcrop.readable, hmarker.readable, htrim.readable, hzoom.readable]
  · simp [schema, hhandle.decode, hcrop.decode, hmarker.decode, htrim.decode, hzoom.decode]

/-- The defaults of a backdrop come back if its padding does. -/
theorem BackgroundDefaults.carries {b : BackgroundDefaults α} (hpadding : ReadsBack b.padding)
    (hradius : b.borderRadius ≤ Scalar.wordMax) :
    Carries (schema.decode .text) b.toJson b := by
  have hradius' := Json.carries_word hradius
  refine Schema.carries_record .text b rfl (by simp [schema]) ?_ ?_ rfl
  · simp [hpadding.readable, hradius'.readable]
  · simp [schema, Json.decodeString, Json.decodeText, Json.decodeBool, hpadding.decode,
      hradius'.decoded]

end

namespace Config

/-- The whole numbers have 32 bits. -/
structure InWords (c : Config α) : Prop where
  exportDefaults : c.exportDefaults.InWords
  borderRadius : c.background.borderRadius ≤ Scalar.wordMax

/-- The numbers of a configuration, apart from its whole numbers. -/
def numbers (c : Config α) : List α := c.background.padding :: c.interaction.numbers

/-- **A configuration carries itself**, if its numbers read back. -/
theorem carries [Legible α] {c : Config α} (hwords : c.InWords)
    (hnumbers : ∀ x ∈ c.numbers, ReadsBack x) : Carries decode c.toJson c := by
  obtain ⟨hpadding, htuning⟩ := List.forall_mem_cons.mp hnumbers
  have hexport := ExportDefaults.carries hwords.exportDefaults
  have hinteraction := Interaction.carries htuning
  have hbackground := BackgroundDefaults.carries hpadding hwords.borderRadius
  have hengine := c.engine.carries
  have hlogging := c.logging.carries
  refine Schema.carries_record .text c rfl (by simp [schema]) ?_ ?_ rfl
  · simp [hexport.readable, hinteraction.readable, hbackground.readable, hengine.readable,
      hlogging.readable]
  · simp [schema, hexport.decoded, hinteraction.decoded, hbackground.decoded, hengine.decoded,
      hlogging.decoded]

/-- What is written of an accepted configuration is read as it, and accepted. -/
theorem ofText_text [Legible α] {c : Config α} (hcheck : c.check = .ok ()) (hwords : c.InWords)
    (hnumbers : ∀ x ∈ c.numbers, ReadsBack x) : ofText c.text = .ok c := by
  have htext : Json.decodeDocument decode c.text = .ok c :=
    (carries hwords hnumbers).indentedText
  simp only [ofText, htext, hcheck]

end Config

/-! ## §2. Given in part. -/

/-- A slot for a path, which may be `null`. -/
@[simp]
def Path.slot? {σ : Type} (key : String) (get : σ → Option Path) : Slot σ where
  key := key
  Value := Option Path
  Gives := Json.GivesOption fun v p => v = .string p.text
  unique := by
    rintro v (_ | ⟨⟨s⟩⟩) (_ | ⟨⟨t⟩⟩) hp hq
    · rfl
    · exact nomatch hp.symm.trans hq
    · exact nomatch hp.symm.trans hq
    · obtain rfl : s = t := Json.string.inj (hp.symm.trans hq)
      rfl
  get := get

/-- A given path is decoded, and so is none. -/
theorem Path.decode_of_gives {v : Json} {o : Option Path}
    (h : Json.GivesOption (fun v p => v = .string p.text) v o) :
    Json.decodeOption decode v = .ok o := by
  refine Json.GivesOption.decode ?_ nofun h
  rintro p rfl
  rfl

/-- The slots of export defaults. -/
def ExportDefaults.table : Table ExportDefaults where
  slots := [.word "fps" fps, .word "width" width, .word "colors" colors, .word "dither" dither,
    .integer "loop_count" loopCount]
  apart := by decide
  whole := by
    rintro ⟨⟩ ⟨⟩ h
    simpa using h

/-- Each field of the defaults of an export is put into its own slot. -/
theorem ExportDefaults.lays : Lays schema table where
  keys := rfl
  finish := rfl
  put := by
    simp only [table, List.forall_mem_cons]
    refine ⟨fun d v (n : Nat) h => ⟨{ d with fps := n },
        by simp [schema, Json.GivesWord.decode h]⟩,
      fun d v (n : Nat) h => ⟨{ d with width := n },
        by simp [schema, Json.GivesWord.decode h]⟩,
      fun d v (n : Nat) h => ⟨{ d with colors := n },
        by simp [schema, Json.GivesWord.decode h]⟩,
      fun d v (n : Nat) h => ⟨{ d with dither := n },
        by simp [schema, Json.GivesWord.decode h]⟩,
      fun d v (n : Int) h => ⟨{ d with loopCount := n },
        by simp [schema, Json.GivesInteger.decode h]⟩, nofun⟩

/-- The slots of the tuning of the gesture surfaces. -/
def Interaction.table (α : Type) [Scalar α] : Table (Interaction α) where
  slots := [.scalar "handle_hit_radius_px" handleHitRadius,
    .scalar "min_crop_width_px" minCropWidth, .scalar "marker_hit_radius_px" markerHitRadius,
    .scalar "min_trim_gap_secs" minTrimGap, .scalar "min_zoom_gap_secs" minZoomGap]
  apart := by simp
  whole := by
    rintro ⟨⟩ ⟨⟩ h
    simpa using h

theorem Interaction.lays : Lays schema (table α) where
  keys := rfl
  finish := rfl
  put := by
    simp only [table, List.forall_mem_cons]
    refine ⟨fun i v (x : α) h => ⟨{ i with handleHitRadius := x },
        by simp [schema, Json.GivesScalar.decode h]⟩,
      fun i v (x : α) h => ⟨{ i with minCropWidth := x },
        by simp [schema, Json.GivesScalar.decode h]⟩,
      fun i v (x : α) h => ⟨{ i with markerHitRadius := x },
        by simp [schema, Json.GivesScalar.decode h]⟩,
      fun i v (x : α) h => ⟨{ i with minTrimGap := x },
        by simp [schema, Json.GivesScalar.decode h]⟩,
      fun i v (x : α) h => ⟨{ i with minZoomGap := x },
        by simp [schema, Json.GivesScalar.decode h]⟩, nofun⟩

/-- The slots of backdrop defaults. -/
def BackgroundDefaults.table (α : Type) [Scalar α] : Table (BackgroundDefaults α) where
  slots := [.boolean "enabled" enabled, .string "color" color, .scalar "padding" padding,
    .word "border_radius" borderRadius]
  apart := by simp
  whole := by
    rintro ⟨⟩ ⟨⟩ h
    simpa using h

theorem BackgroundDefaults.lays : Lays schema (table α) where
  keys := rfl
  finish := rfl
  put := by
    simp only [table, List.forall_mem_cons]
    refine ⟨fun b v (e : Bool) h => ⟨{ b with enabled := e },
        by simp [schema, Json.decodeBool_of_gives h]⟩,
      fun b v (s : String) h => ⟨{ b with color := s },
        by simp [schema, Json.decodeString_of_gives h]⟩,
      fun b v (x : α) h => ⟨{ b with padding := x },
        by simp [schema, Json.GivesScalar.decode h]⟩,
      fun b v (n : Nat) h => ⟨{ b with borderRadius := n },
        by simp [schema, Json.GivesWord.decode h]⟩, nofun⟩

/-- The slots of the names of the tools. -/
def Engine.table : Table Engine where
  slots := [.string "ffmpeg" encoder, .string "ffprobe" prober]
  apart := by decide
  whole := by
    rintro ⟨⟩ ⟨⟩ h
    simpa using h

theorem Engine.lays : Lays schema table where
  keys := rfl
  finish := rfl
  put := by
    simp only [table, List.forall_mem_cons]
    refine ⟨fun e v (s : String) h => ⟨{ e with encoder := s },
        by simp [schema, Json.decodeString_of_gives h]⟩,
      fun e v (s : String) h => ⟨{ e with prober := s },
        by simp [schema, Json.decodeString_of_gives h]⟩, nofun⟩

/-- The slots of what is logged. -/
def Logging.table : Table Logging where
  slots := [.string "level" level, .boolean "json" json, Path.slot? "file" file]
  apart := by decide
  whole := by
    rintro ⟨⟩ ⟨⟩ h
    simpa using h

theorem Logging.lays : Lays schema table where
  keys := rfl
  finish := rfl
  put := by
    simp only [table, List.forall_mem_cons]
    refine ⟨fun l v (s : String) h => ⟨{ l with level := s },
        by simp [schema, Json.decodeString_of_gives h]⟩,
      fun l v (b : Bool) h => ⟨{ l with json := b },
        by simp [schema, Json.decodeBool_of_gives h]⟩,
      fun l v (p : Option Path) h => ⟨{ l with file := p },
        by simp [schema, Path.decode_of_gives h]⟩, nofun⟩

namespace Config

/-- The slots of a configuration: its sections, each an object of its own. -/
def table (α : Type) [Scalar α] : Table (Config α) where
  slots := [Table.part "export" ExportDefaults.table {} exportDefaults,
    Table.part "interaction" (Interaction.table α) {} interaction,
    Table.part "background" (BackgroundDefaults.table α) {} background,
    Table.part "engine" Engine.table {} engine, Table.part "logging" Logging.table {} logging]
  apart := by simp
  whole := by
    rintro ⟨⟩ ⟨⟩ h
    simpa using h

/-- Each section of a configuration is put into its own slot. -/
theorem lays : Lays schema (table α) where
  keys := rfl
  finish := rfl
  put := by
    simp only [table, List.forall_mem_cons]
    refine ⟨fun c v (d : ExportDefaults) h => ⟨{ c with exportDefaults := d }, ?_⟩,
      fun c v (i : Interaction α) h => ⟨{ c with interaction := i }, ?_⟩,
      fun c v (b : BackgroundDefaults α) h => ⟨{ c with background := b }, ?_⟩,
      fun c v (e : Engine) h => ⟨{ c with engine := e }, ?_⟩,
      fun c v (l : Logging) h => ⟨{ c with logging := l }, ?_⟩, nofun⟩
    · simp [schema, ExportDefaults.lays.decode_of_gives .text h]
    · simp [schema, Interaction.lays.decode_of_gives .text h]
    · simp [schema, BackgroundDefaults.lays.decode_of_gives .text h]
    · simp [schema, Engine.lays.decode_of_gives .text h]
    · simp [schema, Logging.lays.decode_of_gives .text h]

theorem start_eq : (schema : Schema (Config α) (Config α)).start = default := rfl

/-! ## §3. Both ways. -/

/-- **CONFIGURATIONS COME BACK, AND MERGE WITH THE DEFAULTS.**  An accepted configuration of
finite numbers is loaded from the file it was saved to, wherever that is.  And whatever object
gives well-typed values to some fields of some sections, the given values and the defaults
elsewhere make one configuration, which the object is decoded to, and so is every text of it.
Keys that name no field are passed over. -/
theorem configs_come_back_and_merge [Legible α] :
    (∀ c : Config α, c.check = .ok () → c.InWords →
        (∀ x ∈ c.numbers, Scalar.isFinite x = true) →
        (∀ x ∈ c.numbers, Scalar.isFinite x = true → ReadsBack x) →
        ∀ (path : Path) (fs fs' : Files), (c.saving path).store fs = .ok fs' →
          load (fs'.readText path) = .ok c)
      ∧ ∀ entries : List (String × Json), (table α).Suits entries →
        ∃ c : Config α, (∀ d, (table α).Fills default entries d ↔ d = c)
          ∧ decode (.record entries) = .ok c
          ∧ ∀ text, Json.readText text = (.record entries, true) →
            Json.decodeDocument decode text = .ok c := by
  constructor
  · intro c hcheck hwords hfinite hprinted path fs fs' hstore
    have hread : fs'.readText path = .ok c.text := Files.readText_of_store hstore
    rw [hread, load]
    exact ofText_text hcheck hwords fun x hx => hprinted x hx (hfinite x hx)
  · intro entries hsuits
    -- The table has one filling for each object, and decoding finds it.
    obtain ⟨c, hdecode, hfills⟩ := (lays (α := α)).exists_decode .text hsuits
    rw [start_eq] at hfills
    refine ⟨c, fun d => ⟨fun hd => hd.unique hfills, ?_⟩, hdecode, fun text htext => ?_⟩
    · rintro rfl
      exact hfills
    · rw [Json.decodeDocument_of_readText decode htext]
      exact hdecode

/-- A configuration that differs from the defaults in every section, and an object that gives
part of a section, nothing of another and, under a key of no field, something else. -/
theorem configs_come_back_and_merge_some :
    let full : Config Float :=
      { exportDefaults := { fps := 24, loopCount := -1 }
        interaction := { minCropWidth := 12.5, minTrimGap := 0.75 }
        background := { enabled := true, color := "red", padding := 0.25 }
        engine := { prober := "/opt/ffmpeg/bin/ffprobe" }
        logging := { json := true, file := some ⟨"logs/\"all\".log"⟩ } }
    let given : Json := .record [("export", .record [("fps", .nat 24), ("bitrate", .null)]),
      ("engine", .record []), ("logging", .record [("file", .string "all.log")])]
    let merged : Config Float :=
      { exportDefaults := { fps := 24 }, logging := { file := some ⟨"all.log"⟩ } }
    (∃ fs', (full.saving ⟨"togif/config.json"⟩).store {} = .ok fs'
        ∧ load (fs'.readText ⟨"togif/config.json"⟩) = .ok full)
      ∧ Json.readText given.compactText = (given, true)
      ∧ Json.decodeDocument decode given.compactText = .ok merged := by
  intro full given merged
  have hwords : full.InWords :=
    ⟨⟨by decide, by decide, by decide, by decide, by decide, by decide⟩, by decide⟩
  have hfinite : ∀ x ∈ full.numbers, Scalar.isFinite x = true := by decide +kernel
  have hreads : ∀ x ∈ full.numbers, ReadsBack x := by decide +kernel
  obtain ⟨fs, hstore⟩ : ∃ fs, (full.saving ⟨"togif/config.json"⟩).store {} = .ok fs :=
    isOk_iff.mp (by decide +kernel)
  have hword : Json.GivesWord (.nat 24) 24 := ⟨rfl, by decide⟩
  have hexport : ExportDefaults.table.Gives {} (.record [("fps", .nat 24), ("bitrate", .null)])
      { fps := 24 } := by
    refine ⟨_, rfl, ⟨by decide, ?_, ?_⟩, ?_⟩
    · simpa [ExportDefaults.table] using ⟨24, hword⟩
    · simp [ExportDefaults.table, Json.nat, Json.skippedFault?]
    · simpa [ExportDefaults.table, Table.Fills] using hword
  have hengine : Engine.table.Gives {} (.record []) {} :=
    ⟨[], rfl, ⟨by decide, by simp, by simp⟩, .nil _ _⟩
  have hlogging : Logging.table.Gives {} (.record [("file", .string "all.log")])
      { file := some ⟨"all.log"⟩ } := by
    refine ⟨_, rfl, ⟨by decide, ?_, ?_⟩, ?_⟩
    · simpa [Logging.table] using ⟨some ⟨"all.log"⟩, rfl⟩
    · simp [Logging.table, Json.skippedFault?]
    · simp [Logging.table, Table.Fills, Json.GivesOption]
  have hleaf : Json.ReadsLeaf (Json.writeNumeral (.whole 24)) (.number (.whole 24)) :=
    Json.readsLeaf_word (by decide) (by decide)
  have hreadable : given.Readable := by
    simp [given, Json.nat, Json.readable_of_readsLeaf hleaf]
  have hreread : given.reread = given := by
    simp [given, Json.nat, Json.reread, Json.rereadNumeral_of_readsLeaf hleaf]
  have hread : Json.readText given.compactText = (given, true) := by
    have hspelled := Json.readText_of_spells (Json.compact_spells given hreadable)
    rw [hreread] at hspelled
    exact hspelled
  obtain ⟨c, hc, -, htext⟩ := (configs_come_back_and_merge (α := Float)).2
    [("export", .record [("fps", .nat 24), ("bitrate", .null)]), ("engine", .record []),
      ("logging", .record [("file", .string "all.log")])]
    ⟨by decide, by simpa [table] using ⟨⟨_, hexport⟩, ⟨_, hengine⟩, _, hlogging⟩, by simp [table]⟩
  have hmerged : merged = c :=
    (hc merged).mp (by simpa [table, Table.Fills] using ⟨hexport, rfl, rfl, hengine, hlogging⟩)
  refine ⟨⟨fs, hstore, ?_⟩, hread, hmerged ▸ htext _ hread⟩
  exact configs_come_back_and_merge.1 full (by decide +kernel) hwords hfinite
    (fun x hx _ => hreads x hx) _ _ fs hstore

end Config
end GifEdit
