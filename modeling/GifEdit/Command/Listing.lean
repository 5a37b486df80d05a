/-
  GifEdit.Command.Listing
  ───────────────────────
  **LISTING DOCUMENTS AND PIPELINES.**

  Two commands that only read: one shows what a document says, the other what an
  export of it would run.
-/
import GifEdit.Command.Reply
import GifEdit.Render.Codec
import GifEdit.Render.Encoder
import GifEdit.Text.Shell
import GifEdit.Text.Timecode

namespace GifEdit

variable {α : Type} [Scalar α] [Legible α]

/-! ## §1. Documents. -/

/-- The zoom markers for people. -/
def ZoomWindow.listing (z : ZoomWindow α) : String :=
  match z.start, z.stop with
  | some start, some stop => spanText start stop
  | some start, .none => "from " ++ timeText start ++ " to end"
  | .none, _ => "none"

/-- The values of export settings in a row. -/
def ExportSettings.listing (e : ExportSettings) (unit : String) : String :=
  toString e.fps ++ "fps, " ++ toString e.width ++ "px" ++ unit ++ ", " ++ toString e.colors
    ++ " colors, dither " ++ toString e.dither ++ ", loop " ++ e.loopCount.text

/-- The backdrop for people. -/
def Background.listing (b : Background α) : String :=
  if b.enabled then
    b.color.text ++ " padding " ++ fixedText 0 (b.padding * 100) ++ "%, radius "
      ++ toString b.borderRadius ++ "px"
  else "off"

/-- What a document at a path says, line by line. -/
def Document.listing (d : Document α) (path : Path) : List String :=
  let e := d.edit
  ["Edit document: " ++ path.text,
    "  Version: " ++ d.version,
    "  Created: " ++ d.createdAt.title,
    "  Modified: " ++ d.modifiedAt.title,
    "",
    "Source:",
    "  Path: " ++ (d.resolveSource path).text,
    "  Video: " ++ sidesText e.source.width e.source.height ++ ", " ++ timeText e.source.duration,
    "",
    "Edit:",
    "  Trim: " ++ spanText e.trim.start e.trim.stop,
    "  Crop: " ++ cropText e.crop,
    "  Zoom: " ++ e.zoom.listing,
    "",
    "Export:",
    "  Quality: " ++ e.exportSettings.quality.title,
    "  " ++ e.exportSettings.listing " wide",
    "  Background: " ++ e.background.listing]

/-- Shows a document. -/
def describe (path : Path) (file : Except SystemError String) : Reply α :=
  .after (loadDocument path file) fun d => .say (linesText (d.listing path))

/-! ## §2. Pipelines. -/

/-- A shape for people. -/
def Shape.title : Shape → String
  | .simple => "Simple"
  | .twoPart => "TwoPart"
  | .threePart => "ThreePart"

/-- A kind of segment for people. -/
def SegmentKind.title : SegmentKind → String
  | .full => "Full"
  | .cropped => "Cropped"

/-- A segment with its bounds to the millisecond. -/
def Segment.listing (s : Segment α) : String :=
  "  " ++ s.kind.title ++ ": " ++ fixedText 3 s.start ++ "s - " ++ fixedText 3 s.stop ++ "s"

/-- As many blanks as a text of a given length lacks to a width. -/
def blanksTo (width length : Nat) : String := String.ofList (List.replicate (width - length) ' ')

/-- A numbered stage. -/
def Stage.listing (s : Stage α) (i : Nat) : String :=
  let number := toString i
  "  " ++ blanksTo 2 number.length ++ number ++ ". " ++ s.name ++ blanksTo 28 s.name.length ++ " "
    ++ s.text

/-- What an export from a source would run, line by line. -/
def Pipeline.listing (p : Pipeline α) (source : Path) : List String :=
  let command := p.arguments source (p.mask?.map fun _ => ⟨"mask.png"⟩) source.gifPath
  ["Shape: " ++ p.shape.title,
    "Output: " ++ sidesText p.layout.frame.width p.layout.frame.height ++ " ("
      ++ toString p.totalFrames ++ " frames at " ++ toString p.fps ++ "fps, loop "
      ++ p.loopCount.text ++ ")",
    "",
    "Segments:"] ++
  p.segments.map Segment.listing ++
  ["", "Stages:"] ++
  p.stages.zipIdx.map (fun (s, i) => s.listing i) ++
  ["", "Command:", "  ffmpeg " ++ Text.shellLine command]

/-- Shows the pipeline of a document, in words or as JSON. -/
def showPlan (path : Path) (file : Except SystemError String) (asJson : Bool) : Reply α :=
  .after (loadDocument path file) fun d =>
    let p := d.edit.pipeline
    if asJson then .say (linesText [p.toJson.indentedText])
    else .say (linesText (p.listing (d.resolveSource path)))

end GifEdit
