/-
  GifEdit.Render.Codec
  ────────────────────
  **PIPELINES AS JSON.**

  Pipelines are only written, never read.  A stage names its operation under the key
  `op`, an input its kind under the key `kind`, beside their parameters.
-/
import GifEdit.Render.Pipeline
import GifEdit.Edit.Codec

namespace GifEdit

variable {α : Type} [Legible α]

/-! ## §1. Segments, inputs and layout. -/

/-- A kind of segment as JSON. -/
def SegmentKind.toJson : SegmentKind → Json
  | .full => .string "full"
  | .cropped => .string "cropped"

/-- A segment as JSON. -/
def Segment.toJson (s : Segment α) : Json :=
  .record [("kind", s.kind.toJson), ("start", .scalar s.start), ("end", .scalar s.stop)]

/-- A shape as JSON. -/
def Shape.toJson : Shape → Json
  | .simple => .string "simple"
  | .twoPart => .string "two_part"
  | .threePart => .string "three_part"

/-- A mask as JSON. -/
def MaskShape.toJson (m : MaskShape) : Json :=
  .record [("kind", .string "mask_image"), ("width", .nat m.width), ("height", .nat m.height),
    ("radius", .nat m.radius)]

/-- An input as JSON. -/
def PipelineInput.toJson : PipelineInput → Json
  | .sourceVideo => .record [("kind", .string "source_video")]
  | .maskImage mask => mask.toJson

/-- A layout as JSON. -/
def Layout.toJson (l : Layout) : Json :=
  .record [("video_width", .nat l.video.width), ("video_height", .nat l.video.height),
    ("frame_width", .nat l.frame.width), ("frame_height", .nat l.frame.height),
    ("offset_x", .nat l.offsetX), ("offset_y", .nat l.offsetY)]

/-! ## §2. Stages. -/

/-- An operation under its name, with its parameters. -/
def Operation.toJson : Operation α → Json
  | .split n => tagged "split" [("outputs", .nat n)]
  | .trim start stop => tagged "trim" [("start", .scalar start), ("end", .scalar stop)]
  | .resetTimestamps => tagged "reset_timestamps" []
  | .fps n => tagged "fps" [("fps", .nat n)]
  | .crop r => tagged "crop" [("rect", r.toJson)]
  | .scale f => tagged "scale" (sides f)
  | .concat n => tagged "concat" [("segments", .nat n)]
  | .alphaExtract => tagged "alpha_extract" []
  | .alphaMerge => tagged "alpha_merge" []
  | .pad f x y c =>
      tagged "pad" (sides f ++ [("x", .nat x), ("y", .nat y), ("color", c.toJson)])
  | .paletteGen n => tagged "palette_gen" [("max_colors", .nat n)]
  | .paletteUse n => tagged "palette_use" [("bayer_scale", .nat n)]
where
  /-- An object that names its operation first. -/
  tagged (name : String) (fields : List (String × Json)) : Json :=
    .record (("op", .string name) :: fields)
  /-- The sides of a frame. -/
  sides (f : Frame) : List (String × Json) := [("width", .nat f.width), ("height", .nat f.height)]

/-- A label as JSON. -/
def Label.toJson (l : Label) : Json := .string l.name

/-- A stage as JSON. -/
def Stage.toJson (s : Stage α) : Json :=
  .record [("name", .string s.name), ("operation", s.operation.toJson),
    ("inputs", .list (s.inputs.map Label.toJson)), ("outputs", .list (s.outputs.map Label.toJson))]

/-! ## §3. Pipelines. -/

/-- A pipeline as JSON. -/
def Pipeline.toJson (p : Pipeline α) : Json :=
  .record [("shape", p.shape.toJson), ("segments", .list (p.segments.map Segment.toJson)),
    ("stages", .list (p.stages.map Stage.toJson)),
    ("inputs", .list (p.inputs.map PipelineInput.toJson)), ("geometry", p.layout.toJson),
    ("loop_count", p.loopCount.toJson), ("fps", .nat p.fps), ("output", p.output.toJson)]

end GifEdit
