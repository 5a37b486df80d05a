/-
  GifEdit.Render.Dataflow
  ───────────────────────
  **WHAT THE STAGES OF A PIPELINE COMPUTE.**

  Stages hand streams to each other by label.  Read from the first stage to the last,
  a pipeline is a sequence of steps on the streams that are READY: produced, and not
  yet consumed.  A stage takes its inputs away from them and puts its outputs in, so
  nothing is consumed twice or before it is produced, and what is ready at the end is
  what nothing consumed.

  The reading is told what each filter makes of its inputs, and is used twice:

      terms     how a stream comes about, with the filters as mere symbols
      frames    how large its pictures are, refusing what the encoder would refuse

  Beside the terms stands the picture an edit asks for, written without labels.
-/
import GifEdit.Render.Planner

namespace GifEdit

variable {α β : Type}

/-! ## §1. Streams that are ready. -/

/-- Streams that were produced and not yet consumed, under their labels. -/
abbrev Ready (β : Type) := List (Label × β)

namespace Ready

/-- The stream under a label, and the others. -/
def take? : Ready β → Label → Option (β × Ready β)
  | [], _ => none
  | (l, b) :: ready, label =>
      if l = label then some (b, ready)
      else (take? ready label).map fun (found, others) => (found, (l, b) :: others)

/-- The streams under labels, in their order, and the others. -/
def takeAll? (ready : Ready β) : List Label → Option (List β × Ready β)
  | [] => some ([], ready)
  | label :: labels => do
      let (b, ready) ← take? ready label
      let (bs, ready) ← takeAll? ready labels
      return (b :: bs, ready)

end Ready

/-- What a filter makes of its inputs, if it accepts them. -/
abbrev FilterMeaning (α β : Type) := Operation α → List β → Option (List β)

/-- One stage as a step on the streams that are ready. -/
def Stage.run? (meaning : FilterMeaning α β) (s : Stage α) (ready : Ready β) :
    Option (Ready β) := do
  let (taken, others) ← ready.takeAll? s.inputs
  let made ← meaning s.operation taken
  if made.length = s.outputs.length then return others ++ s.outputs.zip made else none

/-- Stages in a row. -/
def runStages? (meaning : FilterMeaning α β) (stages : List (Stage α)) (ready : Ready β) :
    Option (Ready β) :=
  stages.foldlM (fun ready s => s.run? meaning ready) ready

/-- Stages run one after the other. -/
theorem runStages?_append (meaning : FilterMeaning α β) (first second : List (Stage α))
    (ready : Ready β) :
    runStages? meaning (first ++ second) ready
      = (runStages? meaning first ready).bind (runStages? meaning second) := by
  unfold runStages?
  rw [List.foldlM_append]
  rfl

/-- The video of the file with a number. -/
def Label.ofFile (file : Nat) : Label := ⟨toString file ++ ":v"⟩

/-- The streams of files, under the numbers in which the encoder is given them. -/
def fileStreams (files : List β) : Ready β := files.zipIdx.map fun (b, i) => (.ofFile i, b)

/-! ## §2. Terms. -/

/-- How a stream comes about. -/
inductive StreamTerm (α : Type) where
  /-- The video of a file. -/
  | file (number : Nat)
  /-- What a filter makes of streams. -/
  | filtered (operation : Operation α) (inputs : List (StreamTerm α))
  deriving Repr

namespace StreamTerm

/-- Filters as symbols: a split copies its input, any other filter makes one stream of
as many as it takes. -/
def meaning : FilterMeaning α (StreamTerm α)
  | .split n, [t] => some (List.replicate n t)
  | .concat n, ts => if ts.length = n then some [.filtered (.concat n) ts] else none
  | .alphaMerge, [picture, mask] => some [.filtered .alphaMerge [picture, mask]]
  | .paletteUse n, [picture, palette] => some [.filtered (.paletteUse n) [picture, palette]]
  | .split _, _ | .alphaMerge, _ | .paletteUse _, _ => none
  | operation, [t] => some [.filtered operation [t]]
  | _, _ => none

end StreamTerm

/-- The streams that a pipeline leaves, as terms. -/
def Pipeline.terms? (p : Pipeline α) : Option (Ready (StreamTerm α)) :=
  runStages? StreamTerm.meaning p.stages
    (fileStreams ((List.range p.inputs.length).map StreamTerm.file))

/-! ## §3. The picture an edit asks for. -/

namespace Specification

variable [Scalar α]

/-- A segment: its stretch of the clip, from time zero, at the frame rate, cropped if it
shows the crop, at the size of the video. -/
def segmentTerm (s : Specification α) (segment : Segment α) : StreamTerm α :=
  let cut := .filtered (.trim segment.start segment.stop) [.file 0]
  let timed := .filtered (.fps s.exportSettings.fps) [.filtered .resetTimestamps [cut]]
  let shown := match segment.kind, s.crop with
    | .cropped, some r => .filtered (.crop r) [timed]
    | _, _ => timed
  .filtered (.scale s.layout.video) [shown]

/-- The video: the only segment, or all of them joined. -/
def videoTerm (s : Specification α) : StreamTerm α :=
  match s.segments.map s.segmentTerm with
  | [only] => only
  | terms => .filtered (.concat terms.length) terms

/-- The picture: the video, or the video with rounded corners inside its frame. -/
def pictureTerm (s : Specification α) : StreamTerm α :=
  if s.background.enabled then
    let layout := s.layout
    let mask := .filtered .alphaExtract [.filtered (.scale layout.video) [.file 1]]
    .filtered (.pad layout.frame layout.offsetX layout.offsetY s.background.color)
      [.filtered .alphaMerge [s.videoTerm, mask]]
  else s.videoTerm

/-- The GIF: the picture, drawn in a palette made for it. -/
def gifTerm (s : Specification α) : StreamTerm α :=
  let e := s.exportSettings
  .filtered (.paletteUse e.dither)
    [s.pictureTerm, .filtered (.paletteGen e.colors) [s.pictureTerm]]

end Specification

/-! ## §4. Frames. -/

namespace Frame

/-- Whether a region can be cut out of a frame. -/
def admits (f : Frame) (r : Region) : Bool :=
  r.x + r.width ≤ f.width && r.y + r.height ≤ f.height && r.isEven

/-- The frame in which a palette is passed on. -/
def palette : Frame := ⟨16, 16⟩

/-- What filters do to the size of pictures, and which sizes they accept. -/
def meaning : FilterMeaning α Frame
  | .split n, [f] => some (List.replicate n f)
  | .trim _ _, [f] | .resetTimestamps, [f] | .fps _, [f] | .alphaExtract, [f] => some [f]
  | .crop r, [f] => if f.admits r then some [⟨r.width, r.height⟩] else none
  | .scale g, [_] => some [g]
  | .concat n, f :: fs =>
      if (f :: fs).length = n && fs.all (· = f) then some [f] else none
  | .alphaMerge, [picture, mask] => if picture = mask then some [picture] else none
  | .pad g x y _, [f] =>
      if x + f.width ≤ g.width && y + f.height ≤ g.height then some [g] else none
  | .paletteGen _, [_] => some [palette]
  | .paletteUse _, [picture, colors] => if colors = palette then some [picture] else none
  | _, _ => none

end Frame

/-- The frame of a file the encoder reads, for a clip with a given frame. -/
def PipelineInput.frame (clip : Frame) : PipelineInput → Frame
  | .sourceVideo => clip
  | .maskImage mask => ⟨mask.width, mask.height⟩

/-- The streams that a pipeline leaves, as frames, for a clip with a given frame. -/
def Pipeline.frames? (p : Pipeline α) (clip : Frame) : Option (Ready Frame) :=
  runStages? Frame.meaning p.stages (fileStreams (p.inputs.map fun i => i.frame clip))

end GifEdit
