/-
  GifEdit.Edit.Codec
  ──────────────────
  **EDITS AS JSON.**

  An encoder and a decoder for every type an edit is made of.  Decoders end in the
  constructors that check, so a text cannot say more than a program can build.
  Optional parts may be missing; `null` stands for a missing marker or crop.
-/
import GifEdit.Edit.Specification
import GifEdit.Geometry.Canvas
import GifEdit.Json.Decode

namespace GifEdit

open Json (Problem Decoder Schema Origin require)

variable {α : Type} [Scalar α] [Legible α]

/-- Turns a broken rule into a problem of the text that broke it. -/
def Json.refuse {β : Type} : Except (EditError α) β → Except Problem β
  | .ok b => .ok b
  | .error e => .error (.refused e.message)

/-! ## §1. Trim and zoom. -/

/-- A trim as JSON. -/
def TrimRange.toJson (t : TrimRange α) : Json :=
  .record [("start", .scalar t.start), ("end", .scalar t.stop)]

/-- What was found of two bounds. -/
structure FoundBounds (α : Type) where
  start : Option α := none
  stop : Option α := none

/-- A trim range without a clip: its end is not bounded. -/
def TrimRange.schema : Schema (FoundBounds α) (TrimRange α) where
  name := "struct TrimBounds"
  fields := [("start", false), ("end", false)]
  start := {}
  put found key v :=
    match key with
    | "start" => return { found with start := some (← Json.decodeScalar v) }
    | _ => return { found with stop := some (← Json.decodeScalar v) }
  finish found := do
    let start ← require "start" found.start
    let stop ← require "end" found.stop
    Json.refuse (TrimRange.ofBounds start stop Scalar.infinity)

/-- Reads a trim. -/
def TrimRange.decode : Decoder (TrimRange α) := TrimRange.schema.decode .text

/-- Zoom markers as JSON. -/
def ZoomWindow.toJson (z : ZoomWindow α) : Json :=
  .record [("start", .optional .scalar z.start), ("end", .optional .scalar z.stop)]

/-- Zoom markers; a missing marker is none. -/
def ZoomWindow.schema : Schema (ZoomWindow α) (ZoomWindow α) where
  name := "struct ZoomWindow"
  fields := [("start", false), ("end", false)]
  start := ZoomWindow.none
  put found key v :=
    match key with
    | "start" => return { found with start := ← Json.decodeOption Json.decodeScalar v }
    | _ => return { found with stop := ← Json.decodeOption Json.decodeScalar v }
  finish := .ok

/-- Reads zoom markers. -/
def ZoomWindow.decode : Decoder (ZoomWindow α) := ZoomWindow.schema.decode .text

/-! ## §2. Export settings. -/

/-- A loop count as JSON. -/
def LoopCount.toJson (l : LoopCount) : Json := .number (.whole l.count)

/-- A loop count on offer. -/
def LoopCount.decode : Decoder LoopCount := fun v => do
  let n ← Json.decodeInteger v
  Json.refuse (LoopCount.ofInt n : Except (EditError Float) LoopCount)

/-- A quality as JSON. -/
def Quality.toJson (q : Quality) : Json := .string q.name

/-- A quality by its name. -/
def Quality.decode (origin : Origin) : Decoder Quality := Json.decodeName origin Quality.names

/-- Export settings as JSON. -/
def ExportSettings.toJson (e : ExportSettings) : Json :=
  .record [("fps", .nat e.fps), ("width", .nat e.width), ("colors", .nat e.colors),
    ("dither", .nat e.dither), ("loop_count", e.loopCount.toJson), ("quality", e.quality.toJson)]

/-- What was found of export settings. -/
structure FoundSettings where
  fps : Option Nat := none
  width : Option Nat := none
  colors : Option Nat := none
  dither : Option Nat := none
  loopCount : Option LoopCount := none
  quality : Option Quality := none

/-- Export settings; without a loop count the GIF plays for ever. -/
def ExportSettings.schema : Schema FoundSettings ExportSettings where
  name := "struct ExportSettingsData"
  fields := [("fps", false), ("width", false), ("colors", false), ("dither", false),
    ("loop_count", true), ("quality", false)]
  start := {}
  put found key v :=
    match key with
    | "fps" => return { found with fps := some (← Json.decodeWord v) }
    | "width" => return { found with width := some (← Json.decodeWord v) }
    | "colors" => return { found with colors := some (← Json.decodeWord v) }
    | "dither" => return { found with dither := some (← Json.decodeWord v) }
    | "loop_count" => return { found with loopCount := some (← LoopCount.decode v) }
    | _ => return { found with quality := some (← Quality.decode .text v) }
  finish found := do
    let fps ← require "fps" found.fps
    let width ← require "width" found.width
    let colors ← require "colors" found.colors
    let dither ← require "dither" found.dither
    let quality ← require "quality" found.quality
    let settings ← Json.refuse (ExportSettings.ofValues fps width colors dither
      (found.loopCount.getD .forever) : Except (EditError Float) ExportSettings)
    return { settings with quality := quality }

/-- Reads export settings. -/
def ExportSettings.decode : Decoder ExportSettings := ExportSettings.schema.decode .text

/-! ## §3. Backdrop. -/

/-- A color as JSON. -/
def Color.toJson (c : Color) : Json := .string c.text

/-- A color by its text. -/
def Color.decode : Decoder Color := fun v => do
  let s ← Json.decodeString v
  Json.refuse (Color.ofText s : Except (EditError Float) Color)

/-- A backdrop as JSON. -/
def Background.toJson (b : Background α) : Json :=
  .record [("enabled", .boolean b.enabled), ("color", b.color.toJson),
    ("padding", .scalar b.padding), ("border_radius", .nat b.borderRadius)]

/-- What was found of a backdrop. -/
structure FoundBackground (α : Type) where
  enabled : Option Bool := none
  color : Option Color := none
  padding : Option α := none
  borderRadius : Option Nat := none

/-- A backdrop; its padding is checked with the edit it belongs to. -/
def Background.schema : Schema (FoundBackground α) (Background α) where
  name := "struct BackgroundSettings"
  fields := [("enabled", false), ("color", false), ("padding", false), ("border_radius", false)]
  start := {}
  put found key v :=
    match key with
    | "enabled" => return { found with enabled := some (← Json.decodeBool v) }
    | "color" => return { found with color := some (← Color.decode v) }
    | "padding" => return { found with padding := some (← Json.decodeScalar v) }
    | _ => return { found with borderRadius := some (← Json.decodeWord v) }
  finish found := do
    let enabled ← require "enabled" found.enabled
    let color ← require "color" found.color
    let padding ← require "padding" found.padding
    let borderRadius ← require "border_radius" found.borderRadius
    return ⟨enabled, color, padding, borderRadius⟩

/-- Reads a backdrop. -/
def Background.decode : Decoder (Background α) := Background.schema.decode .text

/-! ## §4. Clip and crop. -/

/-- A clip as JSON. -/
def Clip.toJson (c : Clip α) : Json :=
  .record [("name", .string c.name), ("duration_secs", .scalar c.duration),
    ("width", .nat c.width), ("height", .nat c.height)]

/-- What was found of a clip. -/
structure FoundClip (α : Type) where
  name : Option String := none
  duration : Option α := none
  width : Option Nat := none
  height : Option Nat := none

/-- A clip; it is checked with the edit it belongs to. -/
def Clip.schema : Schema (FoundClip α) (Clip α) where
  name := "struct SourceVideo"
  fields := [("name", false), ("duration_secs", false), ("width", false), ("height", false)]
  start := {}
  put found key v :=
    match key with
    | "name" => return { found with name := some (← Json.decodeString v) }
    | "duration_secs" => return { found with duration := some (← Json.decodeScalar v) }
    | "width" => return { found with width := some (← Json.decodeWord v) }
    | _ => return { found with height := some (← Json.decodeWord v) }
  finish found := do
    let name ← require "name" found.name
    let duration ← require "duration_secs" found.duration
    let width ← require "width" found.width
    let height ← require "height" found.height
    return ⟨name, duration, width, height⟩

/-- Reads a clip. -/
def Clip.decode : Decoder (Clip α) := Clip.schema.decode .text

/-- A region as JSON. -/
def Region.toJson (r : Region) : Json :=
  .record [("x", .nat r.x), ("y", .nat r.y), ("width", .nat r.width), ("height", .nat r.height)]

/-- What was found of a rectangle. -/
structure FoundSides (β : Type) where
  x : Option β := none
  y : Option β := none
  width : Option β := none
  height : Option β := none

/-- A rectangle whose sides are read by `decode`. -/
def rectangleSchema {β γ : Type} (name : String) (decode : Decoder β) (build : β → β → β → β → γ) :
    Schema (FoundSides β) γ where
  name := name
  fields := [("x", false), ("y", false), ("width", false), ("height", false)]
  start := {}
  put found key v :=
    match key with
    | "x" => return { found with x := some (← decode v) }
    | "y" => return { found with y := some (← decode v) }
    | "width" => return { found with width := some (← decode v) }
    | _ => return { found with height := some (← decode v) }
  finish found := do
    let x ← require "x" found.x
    let y ← require "y" found.y
    let width ← require "width" found.width
    let height ← require "height" found.height
    return build x y width height

/-- Reads a region. -/
def Region.decode : Decoder Region :=
  (rectangleSchema "struct SourceRect" Json.decodeWord Region.mk).decode .text

/-- A box as JSON. -/
def Box.toJson (b : Box α) : Json :=
  .record [("x", .scalar b.x), ("y", .scalar b.y), ("width", .scalar b.width),
    ("height", .scalar b.height)]

/-- Reads a box. -/
def Box.decode : Decoder (Box α) :=
  (rectangleSchema "struct DisplayRect" Json.decodeScalar Box.mk).decode .text

/-! ## §5. Whole edits. -/

/-- An edit as JSON. -/
def Specification.toJson (s : Specification α) : Json :=
  .record [("source", s.source.toJson), ("trim", s.trim.toJson),
    ("crop", .optional Region.toJson s.crop), ("zoom", s.zoom.toJson),
    ("export", s.exportSettings.toJson), ("background", s.background.toJson)]

/-- What was found of an edit; the optional parts start as their defaults. -/
structure FoundEdit (α : Type) [Scalar α] where
  source : Option (Clip α) := none
  trim : Option (TrimRange α) := none
  crop : Option Region := none
  zoom : ZoomWindow α := ZoomWindow.none
  exportSettings : ExportSettings := .standard
  background : Background α := .standard

/-- An edit, checked as a whole. -/
def Specification.schema : Schema (FoundEdit α) (Specification α) where
  name := "struct EditSpecificationData"
  fields := [("source", false), ("trim", false), ("crop", true), ("zoom", true),
    ("export", true), ("background", true)]
  start := {}
  put found key v :=
    match key with
    | "source" => return { found with source := some (← Clip.decode v) }
    | "trim" => return { found with trim := some (← TrimRange.decode v) }
    | "crop" => return { found with crop := ← Json.decodeOption Region.decode v }
    | "zoom" => return { found with zoom := ← ZoomWindow.decode v }
    | "export" => return { found with exportSettings := ← ExportSettings.decode v }
    | _ => return { found with background := ← Background.decode v }
  finish found := do
    let source ← require "source" found.source
    let trim ← require "trim" found.trim
    Json.refuse (Specification.ofParts source trim found.crop found.zoom found.exportSettings
      found.background)

/-- Reads an edit. -/
def Specification.decode : Decoder (Specification α) := Specification.schema.decode .text

end GifEdit
