/-
  GifEdit.Editor.Script
  ─────────────────────
  **SCRIPTS: SESSIONS AS TEXT.**

  A script holds one step a line, as JSON.  Blank lines and lines that start with
  `#` are skipped, as are blanks around a line.  A step names its kind under the
  key `on`, which may stand anywhere in the object, or is the first item of an
  array.  The rest of the step is kept aside until the kind is known.
-/
import GifEdit.Editor.Gesture
import GifEdit.Edit.Codec
import GifEdit.Text.Blank

namespace GifEdit

open Json (Problem Decoder Schema Origin require)

variable {α : Type} [Scalar α] [Legible α]

/-! ## §1. Events. -/

/-- A phase as JSON. -/
def Phase.toJson (p : Phase) : Json := .string p.name

/-- A phase by its name. -/
def Phase.decode (origin : Origin) : Decoder Phase := Json.decodeName origin Phase.names

/-- What was found of an event. -/
structure FoundEvent (α : Type) where
  phase : Option Phase := none
  x : Option α := none
  y : Option α := none

namespace FoundEvent

/-- Decodes one of the fields of an event. -/
def put (origin : Origin) (found : FoundEvent α) (key : String) (v : Json) :
    Except Problem (FoundEvent α) :=
  match key with
  | "phase" => return { found with phase := some (← Phase.decode origin v) }
  | "x" => return { found with x := some (← Json.decodeScalar v) }
  | _ => return { found with y := some (← Json.decodeScalar v) }

end FoundEvent

/-- A pointer event as JSON. -/
def PointerEvent.toJson (e : PointerEvent α) : Json :=
  .record [("phase", e.phase.toJson), ("x", .scalar e.x), ("y", .scalar e.y)]

/-- The fields of a pointer event. -/
def PointerEvent.schema : Schema (FoundEvent α) (PointerEvent α) where
  name := "struct PointerEvent"
  fields := [("phase", false), ("x", false), ("y", false)]
  start := {}
  put := FoundEvent.put .text
  finish found := do
    let phase ← require "phase" found.phase
    let x ← require "x" found.x
    let y ← require "y" found.y
    return ⟨phase, x, y⟩

/-- Reads a pointer event. -/
def PointerEvent.decode : Decoder (PointerEvent α) := PointerEvent.schema.decode .text

/-! ## §2. Kinds of steps. -/

/-- What a step does, without its values. -/
inductive StepKind where
  | canvas
  | timeline
  | seek
  | markZoomIn
  | placeZoomOut
  | clearCrop
  | preset
  deriving Repr, DecidableEq

namespace StepKind

/-- Names in scripts, in the order messages list them. -/
def names : List (String × StepKind) :=
  [("canvas", .canvas), ("timeline", .timeline), ("seek", .seek), ("mark_zoom_in", .markZoomIn),
    ("place_zoom_out", .placeZoomOut), ("clear_crop", .clearCrop), ("preset", .preset)]

/-- A kind by its name. -/
def decode : Decoder StepKind
  | .string s => Json.pickName names s
  | v => Json.mismatchName v

end StepKind

/-! ## §3. Steps. -/

namespace Step

/-- A step as JSON. -/
def toJson : Step α → Json
  | .canvas phase x y =>
      .record
        [("on", .string "canvas"), ("phase", phase.toJson), ("x", .scalar x), ("y", .scalar y)]
  | .timeline phase x =>
      .record [("on", .string "timeline"), ("phase", phase.toJson), ("x", .scalar x)]
  | .seek t => .record [("on", .string "seek"), ("t", .scalar t)]
  | .markZoomIn => .record [("on", .string "mark_zoom_in")]
  | .placeZoomOut => .record [("on", .string "place_zoom_out")]
  | .clearCrop => .record [("on", .string "clear_crop")]
  | .preset quality => .record [("on", .string "preset"), ("quality", quality.toJson)]

/-- The fields of an event on the canvas. -/
def canvasSchema : Schema (FoundEvent α) (Step α) where
  name := "struct variant ScriptStep::Canvas"
  fields := [("phase", false), ("x", false), ("y", false)]
  start := {}
  put := FoundEvent.put .kept
  finish found := do
    let phase ← require "phase" found.phase
    let x ← require "x" found.x
    let y ← require "y" found.y
    return .canvas phase x y

/-- The fields of an event on the timeline. -/
def timelineSchema : Schema (FoundEvent α) (Step α) where
  name := "struct variant ScriptStep::Timeline"
  fields := [("phase", false), ("x", false)]
  start := {}
  put := FoundEvent.put .kept
  finish found := do
    let phase ← require "phase" found.phase
    let x ← require "x" found.x
    return .timeline phase x

/-- The field of a seek. -/
def seekSchema : Schema (Option α) (Step α) where
  name := "struct variant ScriptStep::Seek"
  fields := [("t", false)]
  start := none
  put _ _ v := return some (← Json.decodeScalar v)
  finish found := return .seek (← require "t" found)

/-- The field of a preset. -/
def presetSchema : Schema (Option Quality) (Step α) where
  name := "struct variant ScriptStep::Preset"
  fields := [("quality", false)]
  start := none
  put _ _ v := return some (← Quality.decode .kept v)
  finish found := return .preset (← require "quality" found)

/-- A step without values; whatever fields it has are ignored. -/
def bareSchema (step : Step α) : Schema Unit (Step α) where
  name := "unit variant"
  fields := []
  start := ()
  put _ _ _ := .ok ()
  finish _ := .ok step

/-- A step of a known kind from what was kept of it. -/
def ofKept (kind : StepKind) (kept : Json) : Except Problem (Step α) :=
  match kind with
  | .canvas => canvasSchema.decode .kept kept
  | .timeline => timelineSchema.decode .kept kept
  | .seek => seekSchema.decode .kept kept
  | .markZoomIn => (bareSchema .markZoomIn).decode .kept kept
  | .placeZoomOut => (bareSchema .placeZoomOut).decode .kept kept
  | .clearCrop => (bareSchema .clearCrop).decode .kept kept
  | .preset => presetSchema.decode .kept kept

/-- How many brackets may be open inside a step. -/
def keptDepth : Nat := 127

/-- Looks for the kind among the entries of an object and keeps the others. -/
def findKind (kind : Option StepKind) :
    List (Json.Key × Json) → Except Problem (Option StepKind × List (Json.Key × Json))
  | [] => .ok (kind, [])
  | (.error fault, _) :: _ => .error (.malformed fault)
  | (.ok key, v) :: rest =>
      if key = "on" then
        if kind.isSome then .error (.duplicateField "on")
        else do
          let found ← StepKind.decode v
          findKind (some found) rest
      else do
        Json.pass (Json.keptFault? keptDepth v)
        let (kind, kept) ← findKind kind rest
        return (kind, (.ok key, v) :: kept)

/-- Reads a step. -/
def decode : Decoder (Step α)
  | .object entries ending => do
      let (kind, kept) ← findKind none entries
      Json.pass (ending.entryFault? entries.isEmpty)
      ofKept (← require "on" kind) (.object kept .closed)
  | .array [] ending => do
      Json.pass ending.itemFault?
      .error (.missingField "on")
  | .array (first :: rest) ending => do
      let kind ← StepKind.decode first
      Json.pass (Json.keptItemsFault? keptDepth rest <|> ending.itemFault?)
      ofKept kind (.list rest)
  | v => Json.mismatch "internally tagged enum ScriptStep" v

end Step

/-! ## §4. Scripts. -/

namespace Script

/-- Whether a trimmed line holds a step. -/
def isStep : List Char → Bool
  | [] => false
  | c :: _ => c != '#'

/-- The lines of a script that hold steps, without the blanks around them. -/
def stepLines (text : List Char) : List (List Char) :=
  ((Text.lines text).map Text.trim).filter isStep

/-- The steps of a script. -/
def ofText (text : String) : Except Problem (List (Step α)) :=
  (stepLines text.toList).mapM fun line => Json.decodeDocument Step.decode (String.ofList line)

/-- The script of a list of steps. -/
def text (steps : List (Step α)) : String :=
  String.ofList (steps.flatMap fun step => step.toJson.compact ++ ['\n'])

end Script
end GifEdit
