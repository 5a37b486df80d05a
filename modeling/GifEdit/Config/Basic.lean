/-
  GifEdit.Config.Basic
  ────────────────────
  **CONFIGURATION.**

  Defaults for new edits, the tuning of the two gesture surfaces, and the external
  tools.  Export and backdrop defaults are kept as they were written; they are
  checked when an edit is made from them.  The tuning and the padding are checked
  when a configuration is loaded.
-/
import GifEdit.Scalar
import GifEdit.Decimal.Notation
import GifEdit.Text.Path

namespace GifEdit

/-! ## §1. Sections. -/

/-- Export parameters of new edits. -/
structure ExportDefaults where
  fps : Nat := 15
  width : Nat := 600
  colors : Nat := 256
  dither : Nat := 5
  loopCount : Int := 0
  deriving Repr, DecidableEq, Inhabited

variable (α : Type) [Scalar α]

/-- Tuning of the gesture surfaces: radii and widths in display units, gaps in
seconds. -/
structure Interaction where
  handleHitRadius : α := 30
  minCropWidth : α := 8
  markerHitRadius : α := 8
  minTrimGap : α := 0.5
  minZoomGap : α := 0.1
  deriving Repr, DecidableEq

/-- Backdrop of new edits. -/
structure BackgroundDefaults where
  enabled : Bool := false
  color : String := "#292929"
  padding : α := 0.1
  borderRadius : Nat := 16
  deriving Repr, DecidableEq

/-- Names of the external tools. -/
structure Engine where
  encoder : String := "ffmpeg"
  prober : String := "ffprobe"
  deriving Repr, DecidableEq, Inhabited

/-- What is logged, and where to. -/
structure Logging where
  level : String := "info"
  json : Bool := false
  file : Option Path := none
  deriving Repr, DecidableEq, Inhabited

/-- A configuration. -/
structure Config where
  exportDefaults : ExportDefaults := {}
  interaction : Interaction α := {}
  background : BackgroundDefaults α := {}
  engine : Engine := {}
  logging : Logging := {}
  deriving Repr, DecidableEq

instance : Inhabited (Config α) := ⟨{}⟩

variable {α : Type} [Scalar α]

/-! ## §2. Checks. -/

/-- Why a configuration is refused. -/
inductive ConfigError (α : Type) where
  /-- The zoom gap is outside its range. -/
  | zoomGap (gap : α)
  /-- The zoom gap is longer than the trim gap. -/
  | gapsCrossed
  /-- A surface that nothing can hit. -/
  | hitRadius
  /-- The padding is outside its range. -/
  | padding (padding : α)
  deriving Repr, DecidableEq

/-- The message of a configuration error. -/
def ConfigError.message [Legible α] : ConfigError α → String
  | .zoomGap gap => "min_zoom_gap_secs must be within [0.1, 0.5], got " ++ plainText gap
  | .gapsCrossed => "min_zoom_gap_secs must not exceed min_trim_gap_secs"
  | .hitRadius => "hit radii must be positive"
  | .padding p => "background padding must be within [0.0, 0.5], got " ++ plainText p

/-- Refuses tuning that the controllers cannot honor. -/
def Config.check (c : Config α) : Except (ConfigError α) Unit :=
  let i := c.interaction
  if !(0.1 ≤ i.minZoomGap && i.minZoomGap ≤ 0.5) then .error (.zoomGap i.minZoomGap)
  else if i.minTrimGap < i.minZoomGap then .error .gapsCrossed
  else if i.handleHitRadius ≤ 0 || i.markerHitRadius ≤ 0 then .error .hitRadius
  else if !(0 ≤ c.background.padding && c.background.padding ≤ 0.5) then
    .error (.padding c.background.padding)
  else .ok ()

/-! ## §3. The standard location. -/

/-- Where the configuration lies: below the configuration directory if one is set,
otherwise below `.config` of the home directory. -/
def configPath (configHome home : Option String) : Path :=
  let base : Path := match configHome with
    | some dir => ⟨dir⟩
    | none => Path.join ⟨home.getD "/tmp"⟩ ⟨".config"⟩
  (base.join ⟨"togif"⟩).join ⟨"config.json"⟩

end GifEdit
