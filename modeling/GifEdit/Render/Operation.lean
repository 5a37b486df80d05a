/-
  GifEdit.Render.Operation
  ────────────────────────
  **FILTERS AND THE STREAMS BETWEEN THEM.**

  A STAGE applies one filter.  Its inputs and outputs are LABELS: a label names one
  stream, and two stages are connected by naming the same one.  Stages are written
  in the notation of the encoder,

      [in]filter=arguments[out]

  in which times have at most three places.
-/
import GifEdit.Edit.Background
import GifEdit.Decimal.Fixed

namespace GifEdit

/-! ## §1. Labels. -/

/-- The name of a stream. -/
structure Label where
  name : String
  deriving Repr, DecidableEq, Inhabited

namespace Label

/-- The video of the first input. -/
def sourceVideo : Label := ⟨"0:v"⟩

/-- The video of the second input. -/
def maskImage : Label := ⟨"1:v"⟩

/-- A label as filters name it. -/
def text (l : Label) : String := "[" ++ l.name ++ "]"

end Label

/-! ## §2. Operations. -/

/-- One filter with its parameters. -/
inductive Operation (α : Type) where
  /-- Makes equal streams out of one. -/
  | split (outputs : Nat)
  /-- Keeps the seconds from `start` up to `stop`. -/
  | trim (start stop : α)
  /-- Lets a stream begin at time zero. -/
  | resetTimestamps
  /-- Resamples to a constant frame rate. -/
  | fps (fps : Nat)
  /-- Cuts a region out of every frame. -/
  | crop (region : Region)
  /-- Scales every frame to given sides. -/
  | scale (frame : Frame)
  /-- Plays streams one after the other. -/
  | concat (segments : Nat)
  /-- Makes a gray picture of the transparency of a mask. -/
  | alphaExtract
  /-- Takes the second stream as the transparency of the first. -/
  | alphaMerge
  /-- Puts every frame at a position inside a larger one of a single color. -/
  | pad (frame : Frame) (x y : Nat) (color : Color)
  /-- Chooses a palette for a whole stream. -/
  | paletteGen (maxColors : Nat)
  /-- Draws the first stream in the palette of the second, with an ordered dither. -/
  | paletteUse (bayerScale : Nat)
  deriving Repr, DecidableEq

/-- Trailing copies of a character removed. -/
def dropTrailing (c : Char) (cs : List Char) : List Char := (cs.reverse.dropWhile (· == c)).reverse

/-- Seconds to the millisecond, without trailing zeros. -/
def secondsChars {α : Type} [Scalar α] (t : α) : List Char :=
  let shown := dropTrailing '.' (dropTrailing '0' (fixedChars 3 t))
  if shown.isEmpty || shown == ['-'] then ['0'] else shown

/-- Seconds to the millisecond, as a text. -/
def secondsText {α : Type} [Scalar α] (t : α) : String := String.ofList (secondsChars t)

namespace Operation

variable {α : Type}

/-- What kind of filter an operation is, whatever its parameters. -/
def kind : Operation α → String
  | .split _ => "split"
  | .trim _ _ => "trim"
  | .resetTimestamps => "reset-timestamps"
  | .fps _ => "resample"
  | .crop _ => "crop"
  | .scale _ => "scale"
  | .concat _ => "concat"
  | .alphaExtract => "alpha-extract"
  | .alphaMerge => "mask-merge"
  | .pad .. => "pad"
  | .paletteGen _ => "palettegen"
  | .paletteUse _ => "paletteuse"

/-- Numbers between colons, as filters take their arguments. -/
def argumentsText (ns : List Nat) : String := ":".intercalate (ns.map toString)

/-- An operation in the notation of the encoder. -/
def filterText [Scalar α] : Operation α → String
  | .split n => "split=" ++ toString n
  | .trim start stop => "trim=start=" ++ secondsText start ++ ":end=" ++ secondsText stop
  | .resetTimestamps => "setpts=PTS-STARTPTS"
  | .fps n => "fps=" ++ toString n
  | .crop r => "crop=" ++ argumentsText [r.width, r.height, r.x, r.y]
  | .scale f => "scale=" ++ argumentsText [f.width, f.height] ++ ":flags=lanczos"
  | .concat n => "concat=n=" ++ toString n ++ ":v=1:a=0"
  | .alphaExtract => "alphaextract"
  | .alphaMerge => "alphamerge"
  | .pad f x y c =>
      "pad=" ++ argumentsText [f.width, f.height, x, y] ++ ":color=" ++ c.filterText
  | .paletteGen n => "palettegen=max_colors=" ++ toString n
  | .paletteUse n => "paletteuse=dither=bayer:bayer_scale=" ++ toString n

end Operation

/-! ## §3. Stages. -/

/-- A filter with the streams it reads and writes. -/
structure Stage (α : Type) where
  /-- What the stage is for; no two stages of a pipeline have the same name. -/
  name : String
  operation : Operation α
  inputs : List Label
  outputs : List Label
  deriving Repr, DecidableEq

/-- A stage in the notation of the encoder. -/
def Stage.text {α : Type} [Scalar α] (s : Stage α) : String :=
  let labels (ls : List Label) := String.join (ls.map Label.text)
  labels s.inputs ++ s.operation.filterText ++ labels s.outputs

end GifEdit
