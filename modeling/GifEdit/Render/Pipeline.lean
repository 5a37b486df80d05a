/-
  GifEdit.Render.Pipeline
  ───────────────────────
  **PIPELINES: ALL THAT THE ENCODER IS TOLD.**

  A pipeline lists the stages in the order in which they are written, the files the
  encoder reads, and what the container needs to know.  It is plain data; its graph
  and its argument list are texts computed from it.
-/
import GifEdit.Render.Operation
import GifEdit.Render.Segment
import GifEdit.Render.Layout
import GifEdit.Text.Path

namespace GifEdit

/-! ## §1. Inputs. -/

/-- The rounded mask a backdrop needs: its sides and the radius of its corners. -/
structure MaskShape where
  width : Nat
  height : Nat
  radius : Nat
  deriving Repr, DecidableEq, Inhabited

/-- A file the encoder reads. -/
inductive PipelineInput where
  | sourceVideo
  /-- A mask that is drawn before the encoder starts. -/
  | maskImage (mask : MaskShape)
  deriving Repr, DecidableEq, Inhabited

/-! ## §2. Pipelines. -/

/-- All that the encoder is told. -/
structure Pipeline (α : Type) where
  shape : Shape
  segments : List (Segment α)
  stages : List (Stage α)
  /-- The files in the order of their numbers. -/
  inputs : List PipelineInput
  layout : Layout
  loopCount : LoopCount
  fps : Nat
  /-- The stream that is written. -/
  output : Label
  deriving Repr, DecidableEq

namespace Pipeline

variable {α : Type} [Scalar α]

/-- Seconds of output. -/
def duration (p : Pipeline α) : α := Scalar.total (p.segments.map Segment.duration)

/-- Frames of output. -/
def totalFrames (p : Pipeline α) : Nat :=
  Scalar.wholeUpTo Scalar.doubleWordMax
    (Scalar.max (Scalar.round (p.duration * Scalar.ofNat p.fps)) 0)

/-- The kinds of the stages, in order. -/
def kinds (p : Pipeline α) : List String := p.stages.map fun s => s.operation.kind

/-- Where the first stage of a kind stands. -/
def position? (p : Pipeline α) (kind : String) : Option Nat := p.kinds.findIdx? (· == kind)

/-- The mask that has to be drawn, if there is one. -/
def mask? (p : Pipeline α) : Option MaskShape :=
  p.inputs.findSome? fun
    | .maskImage mask => some mask
    | .sourceVideo => none

/-- The graph of the stages in the notation of the encoder. -/
def graphText (p : Pipeline α) : String := ";".intercalate (p.stages.map Stage.text)

/-- The path of an input; a mask that was not drawn has none. -/
def inputPath (source : Path) (mask : Option Path) : PipelineInput → Option Path
  | .sourceVideo => some source
  | .maskImage _ => mask

/-- The arguments of the encoder. -/
def arguments (p : Pipeline α) (source : Path) (mask : Option Path) (output : Path) :
    List String :=
  let files := p.inputs.filterMap (inputPath source mask)
  ["-y", "-hide_banner"] ++ files.flatMap (fun file => ["-i", file.text]) ++
    ["-filter_complex", p.graphText, "-map", p.output.text, "-loop",
      toString p.loopCount.count, output.text]

end Pipeline
end GifEdit
