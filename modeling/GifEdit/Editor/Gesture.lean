/-
  GifEdit.Editor.Gesture
  ──────────────────────
  **POINTER EVENTS AND RECORDED STEPS.**

  A gesture is a run of pointer events on one surface, from a press to a release or
  to the pointer leaving.  A STEP is what a recorded session consists of: an event
  on one of the two surfaces, or a command.
-/
import GifEdit.Edit.Export
import GifEdit.Scalar

namespace GifEdit

/-! ## §1. Pointer events. -/

/-- Where an event stands in its gesture. -/
inductive Phase where
  | down
  | move
  | up
  /-- The pointer left the surface, which ends the gesture like a release. -/
  | leave
  deriving Repr, DecidableEq, Inhabited

/-- Whether an event of this phase ends its gesture. -/
def Phase.endsGesture : Phase → Bool
  | .up | .leave => true
  | .down | .move => false

/-- Names in scripts, in the order messages list them. -/
def Phase.names : List (String × Phase) :=
  [("down", .down), ("move", .move), ("up", .up), ("leave", .leave)]

/-- The name in scripts. -/
def Phase.name : Phase → String
  | .down => "down"
  | .move => "move"
  | .up => "up"
  | .leave => "leave"

/-- A pointer event in the coordinates of the surface it hit. -/
structure PointerEvent (α : Type) where
  phase : Phase
  x : α
  y : α
  deriving Repr, DecidableEq

/-! ## §2. Steps. -/

/-- One step of a recorded session. -/
inductive Step (α : Type) where
  /-- A pointer event on the crop canvas. -/
  | canvas (phase : Phase) (x y : α)
  /-- A pointer event on the timeline, of which only `x` matters. -/
  | timeline (phase : Phase) (x : α)
  /-- Moves the playhead. -/
  | seek (t : α)
  /-- Puts the zoom-in marker at the playhead. -/
  | markZoomIn
  /-- Puts the zoom-out marker at the playhead. -/
  | placeZoomOut
  /-- Removes the crop and both markers. -/
  | clearCrop
  /-- Takes the export settings of a quality. -/
  | preset (quality : Quality)
  deriving Repr, DecidableEq

end GifEdit
