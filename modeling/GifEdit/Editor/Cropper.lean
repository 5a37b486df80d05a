/-
  GifEdit.Editor.Cropper
  ──────────────────────
  **THE CROP CANVAS: DRAW, RESIZE AND MOVE A BOX.**

  The cropper holds the crop on the canvas while the user drags and turns it into
  source pixels when a gesture ends.  Every box it makes has the proportions of the
  video and stays on the canvas:

      draw      a press on empty canvas anchors a new box at the pointer
      resize    a press near a corner anchors the box at the opposite corner
      move      a press inside the box carries it along

  A gesture COMMITS if it leaves a box that an encoder accepts; if a newly drawn
  box is too small, the box before the gesture comes back.
-/
import GifEdit.Editor.Gesture
import GifEdit.Geometry.Letterbox
import GifEdit.Config.Basic

namespace GifEdit

variable {α : Type}

/-! ## §1. Handles. -/

/-- Tuning of the crop canvas. -/
structure CropTuning (α : Type) where
  /-- How far from a corner, along each axis, a press still grabs it. -/
  handleHitRadius : α
  /-- The least width a resize leaves. -/
  minWidth : α
  deriving Repr, DecidableEq

/-- The tuning that a configuration asks for. -/
def Interaction.cropTuning [Scalar α] (i : Interaction α) : CropTuning α :=
  ⟨i.handleHitRadius, i.minCropWidth⟩

/-- A corner of the box that can be dragged. -/
inductive Handle where
  | topLeft
  | topRight
  | bottomLeft
  | bottomRight
  deriving Repr, DecidableEq, Inhabited

namespace Handle

/-- All handles, in the order in which a press tries them. -/
def all : List Handle := [.topLeft, .topRight, .bottomLeft, .bottomRight]

/-- The corner across the box. -/
def opposite : Handle → Handle
  | .topLeft => .bottomRight
  | .topRight => .bottomLeft
  | .bottomLeft => .topRight
  | .bottomRight => .topLeft

/-- Whether the corner lies to the left of its opposite. -/
def isLeft : Handle → Bool
  | .topLeft | .bottomLeft => true
  | .topRight | .bottomRight => false

/-- Whether the corner lies above its opposite. -/
def isTop : Handle → Bool
  | .topLeft | .topRight => true
  | .bottomLeft | .bottomRight => false

/-- The corner of a box. -/
def corner [Scalar α] (b : Box α) : Handle → Point α
  | .topLeft => b.topLeft
  | .topRight => b.topRight
  | .bottomLeft => b.bottomLeft
  | .bottomRight => b.bottomRight

end Handle

/-- What a press would grab. -/
inductive CropHit where
  | handle (h : Handle)
  | body
  deriving Repr, DecidableEq

/-- The cursor over the canvas. -/
inductive Cursor where
  | move
  /-- Over the top left and the bottom right corner. -/
  | resizeFalling
  /-- Over the top right and the bottom left corner. -/
  | resizeRising
  | crosshair
  deriving Repr, DecidableEq

/-! ## §2. State. -/

/-- What the current gesture does. -/
inductive CropMode (α : Type) where
  | idle
  /-- Draws a box from `anchor`; `previous` was there before. -/
  | drawing (anchor : Point α) (previous : Option (Box α))
  /-- Drags a handle while the opposite corner stays at `anchor`. -/
  | resizing (handle : Handle) (anchor : Point α)
  /-- Carries the box; `last` is where the pointer was. -/
  | moving (last : Point α)
  deriving Repr, DecidableEq, Inhabited

/-- Whether no gesture is in progress. -/
def CropMode.isIdle : CropMode α → Bool
  | .idle => true
  | _ => false

/-- What a gesture leaves when it ends well. -/
structure CropCommit (α : Type) where
  region : Region
  /-- The playhead at the release, where the zoom-in goes. -/
  zoomIn : α
  deriving Repr, DecidableEq

/-- The crop canvas. -/
structure Cropper (α : Type) where
  tuning : CropTuning α
  canvas : Size α
  source : Frame
  crop : Option (Box α)
  zoomIn : Option α
  mode : CropMode α
  deriving Repr, DecidableEq

namespace Cropper

variable [Scalar α]

/-- A canvas without a crop. -/
def fresh (tuning : CropTuning α) (source : Frame) (canvas : Size α) : Cropper α :=
  ⟨tuning, canvas, source, none, none, .idle⟩

/-- The crop in source pixels, if an encoder accepts it. -/
def sourceRegion (c : Cropper α) : Option Region :=
  match c.crop with
  | none => none
  | some b =>
      let r := b.toSource c.canvas c.source
      if r.isDegenerate then none else some r

/-- Shows a crop of the video. -/
def restore (c : Cropper α) (r : Region) (zoomIn : Option α) : Cropper α :=
  { c with crop := some (r.toDisplay c.canvas c.source), zoomIn := zoomIn, mode := .idle }

/-- Removes the crop and its zoom-in. -/
def clear (c : Cropper α) : Cropper α := { c with crop := none, zoomIn := none, mode := .idle }

/-- Puts the zoom-in at the playhead, if there is a crop; the flag says whether. -/
def markZoomIn (c : Cropper α) (playhead : α) : Cropper α × Bool :=
  if c.crop.isSome then ({ c with zoomIn := some playhead }, true) else (c, false)

/-- Changes the canvas and keeps the crop over the same part of the video. -/
def setCanvas (c : Cropper α) (size : Size α) : Cropper α :=
  let crop := match c.crop with
    | some b =>
        if !c.canvas.isEmpty && !size.isEmpty then
          some (b.scaled (size.width / c.canvas.width) (size.height / c.canvas.height))
        else some b
    | none => none
  { c with crop := crop, canvas := size }

/-! ## §3. Hit testing. -/

/-- Whether a press at a point grabs a corner. -/
def isNear (radius : α) (p corner : Point α) : Bool :=
  Scalar.abs (p.x - corner.x) < radius && Scalar.abs (p.y - corner.y) < radius

/-- What a press at a point would grab: a corner first, then the box. -/
def hit (c : Cropper α) (p : Point α) : Option CropHit :=
  match c.crop with
  | none => none
  | some b =>
      match Handle.all.find? (fun h => isNear c.tuning.handleHitRadius p (h.corner b)) with
      | some h => some (.handle h)
      | none => if b.contains p then some .body else none

/-- The cursor at a point. -/
def cursor (c : Cropper α) (p : Point α) : Cursor :=
  match c.hit p with
  | some (.handle .topLeft) | some (.handle .bottomRight) => .resizeFalling
  | some (.handle .topRight) | some (.handle .bottomLeft) => .resizeRising
  | some .body => .move
  | none => .crosshair

/-! ## §4. Gestures. -/

/-- The box of a given width that grows from `anchor`, to the left or the right and
up or down, with the proportions of the video; it shrinks as far as the canvas asks. -/
def anchoredBox (c : Cropper α) (anchor : Point α) (left top : Bool) (width : α) : Box α :=
  let aspect : α := c.source.aspect
  let roomX := if left then anchor.x else c.canvas.width - anchor.x
  let roomY := if top then anchor.y else c.canvas.height - anchor.y
  let width := Scalar.max (Scalar.min (Scalar.min width roomX) (roomY * aspect)) (0 : α)
  let height := width / aspect
  let x := if left then anchor.x - width else anchor.x
  let y := if top then anchor.y - height else anchor.y
  ⟨Scalar.max x (0 : α), Scalar.max y (0 : α), width, height⟩

/-- A point clamped to the canvas. -/
def clampToCanvas (c : Cropper α) (p : Point α) : Point α where
  x := Scalar.clamp p.x 0 (Scalar.max c.canvas.width (0 : α))
  y := Scalar.clamp p.y 0 (Scalar.max c.canvas.height (0 : α))

/-- A press. -/
def down (c : Cropper α) (p : Point α) : Cropper α :=
  match c.hit p, c.crop with
  | some (.handle h), some b => { c with mode := .resizing h (h.opposite.corner b) }
  | some .body, _ => { c with mode := .moving p }
  | _, _ =>
      let anchor := c.clampToCanvas p
      { c with crop := some (Box.ofPoint anchor), mode := .drawing anchor c.crop }

/-- The box carried by a pointer that moved from `last` to `p`. -/
def movedBox (c : Cropper α) (b : Box α) (last p : Point α) : Box α :=
  let (dx, dy) := p.deltaFrom last
  let maxX := Scalar.max (c.canvas.width - b.width) (0 : α)
  let maxY := Scalar.max (c.canvas.height - b.height) (0 : α)
  ⟨Scalar.clamp (b.x + dx) 0 maxX, Scalar.clamp (b.y + dy) 0 maxY, b.width, b.height⟩

/-- A motion of the pointer. -/
def move (c : Cropper α) (p : Point α) : Cropper α :=
  match c.mode with
  | .idle => c
  | .drawing anchor _ =>
      let (dx, dy) := p.deltaFrom anchor
      { c with crop := some (c.anchoredBox anchor (dx < 0) (dy < 0) (Scalar.abs dx)) }
  | .resizing h anchor =>
      -- The width follows the pointer even where the box was capped, so that the
      -- handle is under the pointer again once it comes back.
      let dx := (p.deltaFrom anchor).1
      let width := Scalar.max (dx * (if h.isLeft then -1 else 1)) c.tuning.minWidth
      { c with crop := some (c.anchoredBox anchor h.isLeft h.isTop width) }
  | .moving last =>
      { c with crop := c.crop.map (fun b => c.movedBox b last p), mode := .moving p }

/-- The end of a gesture. -/
def release (c : Cropper α) (playhead : α) : Cropper α × Option (CropCommit α) :=
  match c.mode with
  | .idle => (c, none)
  | mode =>
      let done := { c with mode := .idle }
      match c.sourceRegion with
      | some r => ({ done with zoomIn := some playhead }, some ⟨r, playhead⟩)
      | none =>
          match mode with
          | .drawing _ previous => ({ done with crop := previous }, none)
          | _ => (done, none)

/-- Routes a pointer event; a commit puts the zoom-in at the playhead. -/
def handle (c : Cropper α) (e : PointerEvent α) (playhead : α) :
    Cropper α × Option (CropCommit α) :=
  match e.phase with
  | .down => (c.down ⟨e.x, e.y⟩, none)
  | .move => (c.move ⟨e.x, e.y⟩, none)
  | .up | .leave => c.release playhead

end Cropper
end GifEdit
