/-
  GifEdit.Edit.Export
  ───────────────────
  **HOW THE GIF IS ENCODED.**

  Frame rate, width, palette size and dithering, each within a range, and a loop
  count.  A QUALITY is a label: a named preset when the settings were taken from
  one, `custom` as soon as one of them was set by hand.  Constructors refuse values
  outside the ranges, setters clamp them.
-/
import GifEdit.Edit.Error

namespace GifEdit

/-! ## §1. Loop counts. -/

/-- How often a GIF is played: `0` for ever, `-1` once, `n` times more than once. -/
structure LoopCount where
  count : Int
  deriving Repr, DecidableEq

namespace LoopCount

/-- The counts on offer. -/
def allowed : List Int := [-1, 0, 1, 2, 3, 5, 10]

/-- Playing for ever. -/
def forever : LoopCount := ⟨0⟩

instance : Inhabited LoopCount := ⟨forever⟩

/-- The loop count of a number, if it is on offer. -/
def ofInt {α : Type} (n : Int) : Except (EditError α) LoopCount :=
  if allowed.contains n then .ok ⟨n⟩ else .error (.invalidLoopCount n)

/-- A loop count in words. -/
def text (l : LoopCount) : String :=
  if l.count = 0 then "forever" else if l.count = -1 then "once"
  else toString l.count ++ " more times"

end LoopCount

/-! ## §2. Qualities. -/

/-- A label for export settings. -/
inductive Quality where
  | high
  | medium
  | low
  | custom
  deriving Repr, DecidableEq, Inhabited

namespace Quality

/-- Names in files, in the order messages list them. -/
def names : List (String × Quality) :=
  [("high", .high), ("medium", .medium), ("low", .low), ("custom", .custom)]

/-- The name in files. -/
def name : Quality → String
  | .high => "high"
  | .medium => "medium"
  | .low => "low"
  | .custom => "custom"

/-- The name in listings. -/
def title : Quality → String
  | .high => "High"
  | .medium => "Medium"
  | .low => "Low"
  | .custom => "Custom"

/-- The quality with a name, in any case of ASCII letters; on failure the name in
lower case. -/
def ofText (s : String) : Except String Quality :=
  let lower := String.ofList (s.toList.map Char.toLower)
  match names.find? (fun n => n.1 == lower) with
  | some n => .ok n.2
  | none => .error lower

end Quality

/-! ## §3. Settings. -/

/-- A range of whole numbers, ends included. -/
structure Span where
  low : Nat
  high : Nat
  deriving Repr, DecidableEq

/-- The nearest number of a range. -/
def Span.clamp (s : Span) (n : Nat) : Nat :=
  if n < s.low then s.low else if s.high < n then s.high else n

/-- Frames per second. -/
def fpsSpan : Span := ⟨5, 30⟩

/-- Output widths in pixels. -/
def widthSpan : Span := ⟨320, 1200⟩

/-- Palette sizes. -/
def colorsSpan : Span := ⟨32, 256⟩

/-- Scales of the ordered dither. -/
def ditherSpan : Span := ⟨0, 5⟩

/-- Encoding parameters of the GIF. -/
structure ExportSettings where
  fps : Nat
  width : Nat
  colors : Nat
  dither : Nat
  loopCount : LoopCount
  quality : Quality
  deriving Repr, DecidableEq

namespace ExportSettings

/-- The settings of a new edit. -/
def standard : ExportSettings := ⟨15, 600, 256, 5, .forever, .high⟩

instance : Inhabited ExportSettings := ⟨standard⟩

/-- Refuses a value outside its range. -/
def inSpan {α : Type} (field : String) (value : Nat) (s : Span) : Except (EditError α) Unit :=
  if s.low ≤ value && value ≤ s.high then .ok () else .error (.outOfRange field value s.low s.high)

/-- Settings with given values. -/
def ofValues {α : Type} (fps width colors dither : Nat) (loopCount : LoopCount) :
    Except (EditError α) ExportSettings := do
  inSpan "fps" fps fpsSpan
  inSpan "width" width widthSpan
  inSpan "colors" colors colorsSpan
  inSpan "dither" dither ditherSpan
  return ⟨fps, width, colors, dither, loopCount, .custom⟩

/-- The settings of a quality; `custom` relabels the standard ones. -/
def ofQuality : Quality → ExportSettings
  | .high => ⟨15, 800, 256, 5, .forever, .high⟩
  | .medium => ⟨12, 600, 128, 4, .forever, .medium⟩
  | .low => ⟨10, 480, 64, 3, .forever, .low⟩
  | .custom => { standard with quality := .custom }

/-- Takes the values of a quality and keeps the loop count. -/
def applyQuality (e : ExportSettings) (q : Quality) : ExportSettings :=
  { ofQuality q with loopCount := e.loopCount }

/-- Whether all values agree, whatever the labels. -/
def sameValues (e f : ExportSettings) : Bool :=
  e.fps = f.fps && e.width = f.width && e.colors = f.colors && e.dither = f.dither
    && e.loopCount = f.loopCount

/-- Sets the frame rate, clamped to its range. -/
def setFps (e : ExportSettings) (n : Nat) : ExportSettings :=
  { e with fps := fpsSpan.clamp n, quality := .custom }

/-- Sets the width, clamped to its range. -/
def setWidth (e : ExportSettings) (n : Nat) : ExportSettings :=
  { e with width := widthSpan.clamp n, quality := .custom }

/-- Sets the palette size, clamped to its range. -/
def setColors (e : ExportSettings) (n : Nat) : ExportSettings :=
  { e with colors := colorsSpan.clamp n, quality := .custom }

/-- Sets the scale of the dither, clamped to its range. -/
def setDither (e : ExportSettings) (n : Nat) : ExportSettings :=
  { e with dither := ditherSpan.clamp n, quality := .custom }

/-- Sets the loop count. -/
def setLoopCount (e : ExportSettings) (l : LoopCount) : ExportSettings :=
  { e with loopCount := l, quality := .custom }

end ExportSettings
end GifEdit
