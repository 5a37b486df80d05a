/-
  GifEdit.Render.Planner
  ──────────────────────
  **THE PIPELINE OF AN EDIT.**

      [0:v] ─ split ─┬─ trim ─ reset ─ fps ─────── scale ─┐
                     ├─ trim ─ reset ─ fps ─ crop ─ scale ─┼─ concat ─┐
                     └─ trim ─ reset ─ fps ─────── scale ─┘          │
      [1:v] ─ scale ─ alpha extract ───────────────── alpha merge ────┤  with a backdrop
                                                          └─ pad       │
                                     split ─┬─ palette ────┐◄─────────┘
                                            └──────────────┴─ palette use ─ [out]

  Every segment is scaled to the same sides before they are joined, so full frames
  and crops line up, and one palette serves the whole output.  With a single segment
  there is nothing to split or to join.
-/
import GifEdit.Render.Pipeline

namespace GifEdit

/-! ## §1. Labels of a plan. -/

namespace Label

/-- The branch of the source for a segment. -/
def branch (i : Nat) : Label := ⟨"in" ++ toString i⟩

/-- The finished stream of a segment. -/
def segment (i : Nat) : Label := ⟨"s" ++ toString i⟩

/-- A stream inside a segment. -/
def segmentPart (i : Nat) (part : String) : Label := ⟨"s" ++ toString i ++ "_" ++ part⟩

/-- The segments, joined. -/
def joined : Label := ⟨"joined"⟩

/-- The mask at the size of the video. -/
def maskScaled : Label := ⟨"mask_scaled"⟩

/-- The transparency of the mask. -/
def maskAlpha : Label := ⟨"mask_alpha"⟩

/-- The video with rounded corners. -/
def rounded : Label := ⟨"rounded"⟩

/-- The video inside its frame. -/
def framed : Label := ⟨"framed"⟩

/-- The copy of the picture a palette is made for. -/
def paletteSource : Label := ⟨"pal_src"⟩

/-- The copy of the picture that is drawn. -/
def paletteFrames : Label := ⟨"pal_in"⟩

/-- The palette. -/
def palette : Label := ⟨"palette"⟩

/-- The stream that is written. -/
def output : Label := ⟨"out"⟩

end Label

variable {α : Type} [Scalar α]

/-! ## §2. Parts of a plan. -/

/-- Fans the source out, one branch a segment. -/
def fanOut (n : Nat) : List (Stage α) :=
  if 1 < n then
    [⟨"source split", .split n, [.sourceVideo], (List.range n).map Label.branch⟩]
  else []

/-- The stream a segment starts from. -/
def segmentSource (n i : Nat) : Label := if 1 < n then .branch i else .sourceVideo

/-- The stages of one segment. -/
def segmentStages (crop : Option Region) (fps : Nat) (video : Frame) (i : Nat) (source : Label)
    (s : Segment α) : List (Stage α) :=
  let name (step : String) := "segment " ++ toString i ++ " " ++ step
  let timed : List (Stage α) :=
    [⟨name "trim", .trim s.start s.stop, [source], [.segmentPart i "trim"]⟩,
     ⟨name "reset timestamps", .resetTimestamps, [.segmentPart i "trim"], [.segmentPart i "pts"]⟩,
     ⟨name "resample", .fps fps, [.segmentPart i "pts"], [.segmentPart i "fps"]⟩]
  let scale (input : Label) : Stage α := ⟨name "scale", .scale video, [input], [.segment i]⟩
  match s.kind, crop with
  | .cropped, some r =>
      timed ++
        [⟨name "crop", .crop r, [.segmentPart i "fps"], [.segmentPart i "crop"]⟩,
         scale (.segmentPart i "crop")]
  | _, _ => timed ++ [scale (.segmentPart i "fps")]

/-- Joins the segments. -/
def join (n : Nat) : List (Stage α) :=
  if 1 < n then [⟨"concat", .concat n, (List.range n).map Label.segment, [.joined]⟩] else []

/-- The stream of the joined segments. -/
def joinedLabel (n : Nat) : Label :=
  if 1 < n then .joined else if n = 1 then .segment 0 else .sourceVideo

/-- Rounds the corners of a stream and frames it. -/
def backdrop (layout : Layout) (color : Color) (video : Label) : List (Stage α) :=
  [⟨"mask scale", .scale layout.video, [.maskImage], [.maskScaled]⟩,
   ⟨"mask alpha extract", .alphaExtract, [.maskScaled], [.maskAlpha]⟩,
   ⟨"mask merge", .alphaMerge, [video, .maskAlpha], [.rounded]⟩,
   ⟨"background pad", .pad layout.frame layout.offsetX layout.offsetY color, [.rounded],
     [.framed]⟩]

/-- Draws a stream in a palette made for it. -/
def paletteStages (colors dither : Nat) (video : Label) : List (Stage α) :=
  [⟨"palette split", .split 2, [video], [.paletteSource, .paletteFrames]⟩,
   ⟨"palette generate", .paletteGen colors, [.paletteSource], [.palette]⟩,
   ⟨"palette apply", .paletteUse dither, [.paletteFrames, .palette], [.output]⟩]

/-! ## §3. Plans. -/

namespace Specification

/-- The stages of an edit whose segments are known. -/
def stages (s : Specification α) (segments : List (Segment α)) : List (Stage α) :=
  let n := segments.length
  let layout := s.layout
  let e := s.exportSettings
  let cut := segments.zipIdx.flatMap fun (segment, i) =>
    segmentStages s.crop e.fps layout.video i (segmentSource n i) segment
  let framing := if s.background.enabled then
    backdrop layout s.background.color (joinedLabel n) else []
  let framed := if s.background.enabled then Label.framed else joinedLabel n
  fanOut n ++ cut ++ join n ++ framing ++ paletteStages e.colors e.dither framed

/-- The files the encoder reads for an edit. -/
def inputs (s : Specification α) : List PipelineInput :=
  let video := s.layout.video
  .sourceVideo :: if s.background.enabled then
    [.maskImage ⟨video.width, video.height, s.background.borderRadius⟩] else []

/-- The pipeline of an edit. -/
def pipeline (s : Specification α) : Pipeline α where
  shape := s.shape
  segments := s.segments
  stages := s.stages s.segments
  inputs := s.inputs
  layout := s.layout
  loopCount := s.exportSettings.loopCount
  fps := s.exportSettings.fps
  output := .output

end Specification
end GifEdit
