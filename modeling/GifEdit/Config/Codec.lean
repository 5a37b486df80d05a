/-
  GifEdit.Config.Codec
  ────────────────────
  **CONFIGURATIONS AS JSON.**

  Every field of every section may be missing and then has its default, so a file
  holds only what differs.  A section that is there must be an object, or an array
  of its first fields.
-/
import GifEdit.Config.Basic
import GifEdit.Failure
import GifEdit.Files.Saving

namespace GifEdit

open Json (Problem Decoder Schema)

variable {α : Type} [Scalar α] [Legible α]

/-! ## §1. Sections. -/

/-- Export defaults as JSON. -/
def ExportDefaults.toJson (d : ExportDefaults) : Json :=
  .record [("fps", .nat d.fps), ("width", .nat d.width), ("colors", .nat d.colors),
    ("dither", .nat d.dither), ("loop_count", .number (.whole d.loopCount))]

/-- The fields of export defaults. -/
def ExportDefaults.schema : Schema ExportDefaults ExportDefaults where
  name := "struct ExportDefaults"
  fields := [("fps", true), ("width", true), ("colors", true), ("dither", true),
    ("loop_count", true)]
  start := {}
  put found key v :=
    match key with
    | "fps" => return { found with fps := ← Json.decodeWord v }
    | "width" => return { found with width := ← Json.decodeWord v }
    | "colors" => return { found with colors := ← Json.decodeWord v }
    | "dither" => return { found with dither := ← Json.decodeWord v }
    | _ => return { found with loopCount := ← Json.decodeInteger v }
  finish := .ok

/-- The tuning of the gesture surfaces as JSON. -/
def Interaction.toJson (i : Interaction α) : Json :=
  .record [("handle_hit_radius_px", .scalar i.handleHitRadius),
    ("min_crop_width_px", .scalar i.minCropWidth),
    ("marker_hit_radius_px", .scalar i.markerHitRadius),
    ("min_trim_gap_secs", .scalar i.minTrimGap), ("min_zoom_gap_secs", .scalar i.minZoomGap)]

/-- The fields of the tuning of the gesture surfaces. -/
def Interaction.schema : Schema (Interaction α) (Interaction α) where
  name := "struct InteractionConfig"
  fields := [("handle_hit_radius_px", true), ("min_crop_width_px", true),
    ("marker_hit_radius_px", true), ("min_trim_gap_secs", true), ("min_zoom_gap_secs", true)]
  start := {}
  put found key v :=
    match key with
    | "handle_hit_radius_px" => return { found with handleHitRadius := ← Json.decodeScalar v }
    | "min_crop_width_px" => return { found with minCropWidth := ← Json.decodeScalar v }
    | "marker_hit_radius_px" => return { found with markerHitRadius := ← Json.decodeScalar v }
    | "min_trim_gap_secs" => return { found with minTrimGap := ← Json.decodeScalar v }
    | _ => return { found with minZoomGap := ← Json.decodeScalar v }
  finish := .ok

/-- Backdrop defaults as JSON. -/
def BackgroundDefaults.toJson (b : BackgroundDefaults α) : Json :=
  .record [("enabled", .boolean b.enabled), ("color", .string b.color),
    ("padding", .scalar b.padding), ("border_radius", .nat b.borderRadius)]

/-- The fields of backdrop defaults. -/
def BackgroundDefaults.schema : Schema (BackgroundDefaults α) (BackgroundDefaults α) where
  name := "struct BackgroundDefaults"
  fields := [("enabled", true), ("color", true), ("padding", true), ("border_radius", true)]
  start := {}
  put found key v :=
    match key with
    | "enabled" => return { found with enabled := ← Json.decodeBool v }
    | "color" => return { found with color := ← Json.decodeString v }
    | "padding" => return { found with padding := ← Json.decodeScalar v }
    | _ => return { found with borderRadius := ← Json.decodeWord v }
  finish := .ok

/-- The names of the tools as JSON. -/
def Engine.toJson (e : Engine) : Json :=
  .record [("ffmpeg", .string e.encoder), ("ffprobe", .string e.prober)]

/-- The fields of the names of the tools. -/
def Engine.schema : Schema Engine Engine where
  name := "struct EngineConfig"
  fields := [("ffmpeg", true), ("ffprobe", true)]
  start := {}
  put found key v :=
    match key with
    | "ffmpeg" => return { found with encoder := ← Json.decodeString v }
    | _ => return { found with prober := ← Json.decodeString v }
  finish := .ok

/-- A path. -/
def Path.decode : Decoder Path := fun v => (Json.decodeText "path string" v).map Path.mk

/-- A path as JSON. -/
def Path.toJson (p : Path) : Json := .string p.text

/-- What is logged as JSON. -/
def Logging.toJson (l : Logging) : Json :=
  .record [("level", .string l.level), ("json", .boolean l.json),
    ("file", .optional Path.toJson l.file)]

/-- The fields of what is logged. -/
def Logging.schema : Schema Logging Logging where
  name := "struct LoggingConfig"
  fields := [("level", true), ("json", true), ("file", true)]
  start := {}
  put found key v :=
    match key with
    | "level" => return { found with level := ← Json.decodeString v }
    | "json" => return { found with json := ← Json.decodeBool v }
    | _ => return { found with file := ← Json.decodeOption Path.decode v }
  finish := .ok

/-! ## §2. Whole configurations. -/

namespace Config

/-- A configuration as JSON. -/
def toJson (c : Config α) : Json :=
  .record [("export", c.exportDefaults.toJson), ("interaction", c.interaction.toJson),
    ("background", c.background.toJson), ("engine", c.engine.toJson),
    ("logging", c.logging.toJson)]

/-- The fields of a configuration. -/
def schema : Schema (Config α) (Config α) where
  name := "struct AppConfig"
  fields := [("export", true), ("interaction", true), ("background", true), ("engine", true),
    ("logging", true)]
  start := {}
  put found key v :=
    match key with
    | "export" => return { found with exportDefaults := ← ExportDefaults.schema.decode .text v }
    | "interaction" => return { found with interaction := ← Interaction.schema.decode .text v }
    | "background" => return { found with background := ← BackgroundDefaults.schema.decode .text v }
    | "engine" => return { found with engine := ← Engine.schema.decode .text v }
    | _ => return { found with logging := ← Logging.schema.decode .text v }
  finish := .ok

/-- Reads a configuration. -/
def decode : Decoder (Config α) := schema.decode .text

/-- Reads the text of a configuration file and checks it. -/
def ofText (s : String) : Except Failure (Config α) :=
  match Json.decodeDocument decode s with
  | .error problem => .error (.json problem)
  | .ok c =>
      match c.check with
      | .error e => .error (.config e.message)
      | .ok () => .ok c

/-- The configuration that a file holds, if it could be read. -/
def load : Except SystemError String → Except Failure (Config α)
  | .error cause => .error (.system cause)
  | .ok text => ofText text

/-- The configuration that the file at the standard place holds, or the defaults if
there is none or it is refused. -/
def loadOrDefault (file : Except SystemError String) : Config α :=
  match load file with
  | .ok c => c
  | .error _ => default

/-- The text of a configuration file. -/
def text (c : Config α) : String := c.toJson.indentedText

/-- The configuration as a file to be written, in a directory that is made for it. -/
def saving (c : Config α) (path : Path) : Saving Failure :=
  .ofText path c.text fun _ cause => .system cause

end Config
end GifEdit
