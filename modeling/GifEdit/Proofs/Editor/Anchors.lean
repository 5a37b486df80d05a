/-
  GifEdit.Proofs.Editor.Anchors
  ─────────────────────────────
  **DRAWING AND RESIZING HANG ON AN ANCHOR.**

  A press that draws or resizes chooses a point that stays put: the press itself, brought to
  the canvas, or the corner across from the handle.  A motion makes a new box from that point
  and the pointer alone, and nothing of the box before it is left:

      press    the anchor is set
      motion   box := what grows from the anchor to the pointer
      motion   box := what grows from the anchor to the pointer
      …

  So only the last motion counts, wherever the pointer was in between (`moveAll_concat`), and
  that for any numbers.  That the anchor is a corner of the box is exact arithmetic: a box that
  grows back by `w` from `u` begins at `u - w` and ends at `u` again.

  Main result: `anchored_gestures_forget_their_way`.
-/
import GifEdit.Proofs.Editor.Cropper
import GifEdit.Proofs.Editor.Gestures
import GifEdit.Proofs.Geometry.Rescaling

namespace GifEdit

/-! ## §1. Motions that are forgotten. -/

namespace CropMode

variable {α : Type}

/-- The point that stays where it is while the gesture lasts. -/
def anchor? : CropMode α → Option (Point α)
  | .drawing anchor _ | .resizing _ anchor => some anchor
  | .idle | .moving _ => none

end CropMode

namespace Cropper

variable {α : Type} [Scalar α] {c : Cropper α}

/-- The cropper after motions to one point after the other. -/
def moveAll (c : Cropper α) (points : List (Point α)) : Cropper α := points.foldl move c

theorem moveAll_append (c : Cropper α) (points later : List (Point α)) :
    c.moveAll (points ++ later) = (c.moveAll points).moveAll later :=
  List.foldl_append

/-- An anchored gesture goes on as it began. -/
theorem move_mode (h : c.mode.anchor?.isSome = true) (p : Point α) :
    (c.move p).mode = c.mode := by
  unfold move
  cases hm : c.mode with
  | idle => exact hm
  | drawing anchor previous => rfl
  | resizing handle anchor => rfl
  | moving last =>
      rw [hm] at h
      exact nomatch h

/-- **The next motion leaves nothing of the one before it.** -/
theorem move_move (h : c.mode.anchor?.isSome = true) (p q : Point α) :
    (c.move p).move q = c.move q := by
  unfold move
  cases hm : c.mode with
  | idle =>
      rw [hm] at h
      exact nomatch h
  | drawing anchor previous => rfl
  | resizing handle anchor => rfl
  | moving last =>
      rw [hm] at h
      exact nomatch h

/-- **Only the last motion counts.** -/
theorem moveAll_concat (way : List (Point α)) (h : c.mode.anchor?.isSome = true)
    (last : Point α) : c.moveAll (way ++ [last]) = c.move last := by
  induction way generalizing c with
  | nil => rfl
  | cons p way ih =>
      have hnext : (c.move p).mode.anchor?.isSome = true := by
        rw [move_mode h]
        exact h
      show (c.move p).moveAll (way ++ [last]) = c.move last
      rw [ih hnext, move_move h]

/-! ## §2. Presses. -/

/-- A press that draws is brought to the canvas. -/
theorem down_eq_drawing {p anchor : Point α} {previous : Option (Box α)}
    (h : (c.down p).mode = .drawing anchor previous) : anchor = c.clampToCanvas p := by
  unfold down at h
  split at h
  · exact nomatch h
  · exact nomatch h
  · exact (CropMode.drawing.inj h).1.symm

/-- A press that resizes grabs a handle of the box that is there. -/
theorem down_eq_resizing {p anchor : Point α} {handle : Handle}
    (h : (c.down p).mode = .resizing handle anchor) :
    c.hit p = some (.handle handle) ∧ ∃ b, c.crop = some b ∧ anchor = handle.opposite.corner b := by
  unfold down at h
  split at h
  · rename_i grabbed b hhit hcrop
    obtain ⟨rfl, rfl⟩ := CropMode.resizing.inj h
    exact ⟨hhit, b, hcrop, rfl⟩
  · exact nomatch h
  · exact nomatch h

end Cropper

/-! ## §3. The corner of the anchor. -/

namespace Handle

/-- The corner from which a box grows to the left or the right and up or down. -/
def root (left top : Bool) : Handle :=
  match left, top with
  | true, true => .bottomRight
  | true, false => .topRight
  | false, true => .bottomLeft
  | false, false => .topLeft

theorem root_eq_opposite (handle : Handle) :
    root handle.isLeft handle.isTop = handle.opposite := by
  cases handle with
  | topLeft => rfl
  | topRight => rfl
  | bottomLeft => rfl
  | bottomRight => rfl

end Handle

open Exact

variable {a h : ℚ} {p : Point Exact}

/-- **A box grows from its anchor**: the anchor is a corner of it, however far it was asked to
grow. -/
theorem Cropper.root_corner_anchoredBox {c : Cropper Exact} (hc : c.Shows a h)
    (hp : p.OnCanvas a h) (left top : Bool) (width : Exact) :
    (Handle.root left top).corner (c.anchoredBox p left top width) = p := by
  have hp' := hp
  obtain ⟨-, -, -, -⟩ := hp
  rename_i x y
  obtain ⟨w, -, -, -, hbox⟩ := anchoredBox_eq hc hp' left top width
  rw [hbox]
  have hacross : x - w + w = x := sub_add_cancel x w
  have hdown : y - w / a + w / a = y := sub_add_cancel y (w / a)
  -- The sides that were grown back are added again at this corner.
  cases left with
  | true =>
      cases top with
      | true =>
          show Point.mk (rational (x - w + w)) (rational (y - w / a + w / a)) = _
          rw [hacross, hdown]
      | false =>
          show Point.mk (rational (x - w + w)) (rational y) = _
          rw [hacross]
  | false =>
      cases top with
      | true =>
          show Point.mk (rational x) (rational (y - w / a + w / a)) = _
          rw [hdown]
      | false => rfl

/-! ## §4. Croppers on a fitted canvas. -/

/-- Whether the pointer is somewhere. -/
def Point.isFinite {α : Type} [Scalar α] (p : Point α) : Bool :=
  Scalar.isFinite p.x && Scalar.isFinite p.y

theorem Point.isFinite_iff : p.isFinite = true ↔
    ∃ x y : ℚ, p = ⟨rational x, rational y⟩ := by
  obtain ⟨px, py⟩ := p
  unfold isFinite
  rw [Bool.and_eq_true, Exact.isFinite_iff, Exact.isFinite_iff]
  constructor
  · rintro ⟨⟨x, rfl⟩, y, rfl⟩
    exact ⟨x, y, rfl⟩
  · rintro ⟨x, y, heq⟩
    obtain ⟨rfl, rfl⟩ := Point.mk.inj heq
    exact ⟨⟨x, rfl⟩, y, rfl⟩

/-- Whether an event happens somewhere. -/
def PointerEvent.isFinite {α : Type} [Scalar α] (e : PointerEvent α) : Bool :=
  Scalar.isFinite e.x && Scalar.isFinite e.y

/-- Every video has proportions, also one without pixels. -/
theorem Frame.exists_aspect (f : Frame) : ∃ a, 0 < a ∧ (f.aspect : Exact) = rational a := by
  by_cases hf : f.HasPixels
  · exact ⟨f.proportion, proportion_pos hf, aspect_eq hf⟩
  · refine ⟨1, one_pos, ?_⟩
    have hempty : (f.width = 0 || f.height = 0 : Bool) = true := by
      unfold HasPixels at hf
      rw [Bool.or_eq_true, decide_eq_true_eq, decide_eq_true_eq]
      omega
    unfold aspect
    rw [if_pos hempty, literal_eq, Nat.cast_one]

/-- **A fitted canvas that can be seen shows the video.** -/
theorem Cropper.shows_fresh {f : Frame} {container : Size Exact}
    (hvisible : (container.fit f).isVisible = true) (tuning : CropTuning Exact) :
    ∃ a h, (fresh tuning f (container.fit f)).Shows a h := by
  obtain ⟨a, ha, haspect⟩ := f.exists_aspect
  have hcanvas : ∃ h, 0 < h ∧ container.fit f = Size.ofHeight a h := by
    obtain ⟨w, h, hw, hh, hsize⟩ := Size.isVisible_iff.mp hvisible
    rw [hsize]
    unfold Size.fit at hsize
    rw [haspect] at hsize
    split at hsize
    · -- Nothing can be seen in an empty container.
      obtain ⟨hzero, -⟩ := Size.mk.inj hsize
      rw [literal_eq, Nat.cast_zero] at hzero
      exact absurd (rational.inj hzero) hw.ne
    · split at hsize
      · obtain ⟨hwidth, hheight⟩ := Size.mk.inj hsize
        rw [hheight, rational_mul] at hwidth
        exact ⟨h, hh, by rw [← hwidth]; rfl⟩
      · obtain ⟨hwidth, hheight⟩ := Size.mk.inj hsize
        rw [hwidth, rational_div ha.ne'] at hheight
        refine ⟨w / a, div_pos hw ha, ?_⟩
        rw [Size.ofHeight_div ha.ne', rational_div ha.ne', hheight]
  obtain ⟨h, hh, hfit⟩ := hcanvas
  exact ⟨a, h, hfit, haspect, ha, hh⟩

namespace Cropper

variable {c : Cropper Exact}

/-- **Events in a row** keep the boxes on the canvas. -/
theorem inBounds_handleAll (events : List (PointerEvent Exact × Exact)) (hc : c.InBounds a h)
    (hevents : ∀ e ∈ events, e.1.isFinite = true) : (c.handleAll events).InBounds a h := by
  induction events generalizing c with
  | nil => exact hc
  | cons e events ih =>
      rw [List.forall_mem_cons] at hevents
      obtain ⟨hfirst, hrest⟩ := hevents
      refine ih ?_ hrest
      obtain ⟨⟨phase, ex, ey⟩, playhead⟩ := e
      obtain ⟨hx, hy⟩ := Bool.and_eq_true_iff.mp hfirst
      obtain ⟨x, rfl⟩ := Exact.isFinite_iff.mp hx
      obtain ⟨y, rfl⟩ := Exact.isFinite_iff.mp hy
      exact inBounds_handle hc phase x y playhead

/-- **A cropper that is reached from a fresh one** holds boxes on its canvas. -/
theorem inBounds_reached {f : Frame} {container : Size Exact}
    (hvisible : (container.fit f).isVisible = true) (tuning : CropTuning Exact)
    {events : List (PointerEvent Exact × Exact)} (hevents : ∀ e ∈ events, e.1.isFinite = true) :
    ∃ a h, ((fresh tuning f (container.fit f)).handleAll events).InBounds a h := by
  obtain ⟨a, h, hshows⟩ := shows_fresh hvisible tuning
  exact ⟨a, h, inBounds_handleAll events (inBounds_fresh hshows) hevents⟩

/-- A canvas that can be seen has an extent to clamp to. -/
theorem clampToCanvas_eq (hc : c.Shows a h) (p : Point Exact) :
    c.clampToCanvas p
      = ⟨Scalar.clamp p.x 0 c.canvas.width, Scalar.clamp p.y 0 c.canvas.height⟩ := by
  have hwidth : 0 ≤ h * a := (mul_pos hc.height_pos hc.aspect_pos).le
  unfold clampToCanvas
  simp only [hc.canvas, Size.ofHeight, literal_eq, Nat.cast_zero, max_rational,
    max_eq_left hwidth, max_eq_left hc.height_pos.le]

/-- The crop of a gesture that draws has a corner at the anchor. -/
theorem move_crop_of_drawing (hc : c.InBounds a h) {anchor : Point Exact}
    {previous : Option (Box Exact)} (hmode : c.mode = .drawing anchor previous)
    (p : Point Exact) : ∃ b, (c.move p).crop = some b
      ∧ (Handle.root (p.x - anchor.x < 0) (p.y - anchor.y < 0)).corner b = anchor := by
  have hanchor : anchor.OnCanvas a h := by
    have hbounds := hc.mode
    rw [hmode] at hbounds
    cases hbounds with
    | drawing hanchor _ => exact hanchor
  unfold move
  rw [hmode]
  exact ⟨_, rfl, root_corner_anchoredBox hc.toShows hanchor _ _ _⟩

/-- The crop of a gesture that resizes has the corner across from the handle at the anchor. -/
theorem move_crop_of_resizing (hc : c.InBounds a h) {handle : Handle} {anchor : Point Exact}
    (hmode : c.mode = .resizing handle anchor) (p : Point Exact) :
    ∃ b, (c.move p).crop = some b ∧ handle.opposite.corner b = anchor := by
  have hanchor : anchor.OnCanvas a h := by
    have hbounds := hc.mode
    rw [hmode] at hbounds
    cases hbounds with
    | resizing hanchor => exact hanchor
  unfold move
  rw [hmode]
  refine ⟨_, rfl, ?_⟩
  rw [← handle.root_eq_opposite]
  exact root_corner_anchoredBox hc.toShows hanchor _ _ _

/-! ## §5. Gestures. -/

/-- **DRAWING AND RESIZING HANG ON AN ANCHOR AND FORGET THEIR WAY**: whatever events came
before, a press that draws or resizes sets an anchor, the press itself brought to the canvas
or the corner across from the handle.  However the pointer gets to the last point, the state
is the one that a single motion there leaves, and a corner of the crop is exactly at the
anchor; for a resizing it is the corner across from the handle. -/
theorem anchored_gestures_forget_their_way (tuning : CropTuning Exact) (f : Frame)
    (container : Size Exact) (events : List (PointerEvent Exact × Exact))
    (press last : Point Exact) (way : List (Point Exact))
    (hvisible : (container.fit f).isVisible = true)
    (hevents : ∀ e ∈ events, e.1.isFinite = true) (hpress : press.isFinite = true) :
    let c := (fresh tuning f (container.fit f)).handleAll events
    let pressed := c.down press
    let moved := pressed.moveAll (way ++ [last])
    (∀ anchor previous, pressed.mode = .drawing anchor previous →
      anchor = ⟨Scalar.clamp press.x 0 c.canvas.width, Scalar.clamp press.y 0 c.canvas.height⟩
        ∧ moved = pressed.move last
        ∧ ∃ b, moved.crop = some b
          ∧ (Handle.root (last.x - anchor.x < 0) (last.y - anchor.y < 0)).corner b = anchor)
    ∧ (∀ handle anchor, pressed.mode = .resizing handle anchor →
      (c.hit press = some (.handle handle)
        ∧ ∃ b, c.crop = some b ∧ anchor = handle.opposite.corner b)
        ∧ moved = pressed.move last
        ∧ ∃ b, moved.crop = some b ∧ handle.opposite.corner b = anchor) := by
  intro c pressed moved
  obtain ⟨a, h, hc⟩ := inBounds_reached hvisible tuning hevents
  obtain ⟨x, y, rfl⟩ := Point.isFinite_iff.mp hpress
  have hpressed : pressed.InBounds a h := inBounds_down hc x y
  -- Either gesture computes the box from its anchor, so a motion absorbs those before it.
  constructor
  · intro anchor previous hmode
    have hmoved : moved = pressed.move last :=
      moveAll_concat way (by rw [hmode]; rfl) last
    rw [hmoved, ← clampToCanvas_eq hc.toShows]
    exact ⟨down_eq_drawing hmode, rfl, move_crop_of_drawing hpressed hmode last⟩
  · intro handle anchor hmode
    have hmoved : moved = pressed.move last :=
      moveAll_concat way (by rw [hmode]; rfl) last
    rw [hmoved]
    exact ⟨down_eq_resizing hmode, rfl, move_crop_of_resizing hpressed hmode last⟩

/-- A box is drawn from a press beside the canvas, far beyond the opposite edge and back; its
lower left corner is then dragged below the canvas and beyond the anchor. -/
theorem anchored_gestures_forget_their_way_overshot :
    let f : Frame := ⟨1920, 1080⟩
    let container : Size Exact := ⟨640, 480⟩
    let fresh : Cropper Exact := fresh ⟨30, 8⟩ f (container.fit f)
    let drawn := (fresh.down ⟨700, 50⟩).moveAll ([⟨-900, 2000⟩, ⟨650, -70⟩] ++ [⟨320, 230⟩])
    let events : List (PointerEvent Exact × Exact) :=
      [(⟨.down, 700, 50⟩, 1), (⟨.move, 320, 230⟩, 1), (⟨.up, 320, 230⟩, 1)]
    let c := fresh.handleAll events
    let resized := (c.down ⟨325, 225⟩).moveAll ([⟨300, 900⟩, ⟨2000, 0⟩] ++ [⟨160, 300⟩])
    (container.fit f).isVisible = true ∧ drawn = (fresh.down ⟨700, 50⟩).move ⟨320, 230⟩
      ∧ drawn.crop = some ⟨320, 50, 320, 180⟩
      ∧ c.hit ⟨325, 225⟩ = some (.handle .bottomLeft)
      ∧ resized = (c.down ⟨325, 225⟩).move ⟨160, 300⟩
      ∧ resized.crop = some ⟨160, 50, 480, 270⟩
      ∧ ∃ b, resized.crop = some b ∧ Handle.corner b .topRight = ⟨640, 50⟩ := by
  intro f container fresh drawn events c resized
  have hvisible : (container.fit f).isVisible = true := by decide +kernel
  have hevents : ∀ e ∈ events, e.1.isFinite = true := by decide
  obtain ⟨hdraw, -⟩ := anchored_gestures_forget_their_way ⟨30, 8⟩ f container [] ⟨700, 50⟩
    ⟨320, 230⟩ [⟨-900, 2000⟩, ⟨650, -70⟩] hvisible (fun _ he => nomatch he) rfl
  obtain ⟨-, hresize⟩ := anchored_gestures_forget_their_way ⟨30, 8⟩ f container events
    ⟨325, 225⟩ ⟨160, 300⟩ [⟨300, 900⟩, ⟨2000, 0⟩] hvisible hevents rfl
  obtain ⟨-, hdrawn, -⟩ := hdraw ⟨640, 50⟩ none (by decide +kernel)
  obtain ⟨⟨hhit, -⟩, hresized, hcorner⟩ := hresize .bottomLeft ⟨640, 50⟩ (by decide +kernel)
  exact ⟨hvisible, hdrawn, by decide +kernel, hhit, hresized, by decide +kernel, hcorner⟩

end Cropper
end GifEdit
