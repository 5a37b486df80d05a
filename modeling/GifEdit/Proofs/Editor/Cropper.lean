/-
  GifEdit.Proofs.Editor.Cropper
  ─────────────────────────────
  **BOXES STAY ON THE CANVAS AND KEEP THE PROPORTIONS OF THE VIDEO.**

  A cropper holds up to two boxes: the crop, and while a box is drawn also the one that
  comes back if the new one is too small.  Each of them is PLACED on the canvas of
  height `h` for a video of proportions `a`:

      0 ≤ x,  0 ≤ y,  0 ≤ height,  width = height · a,  right ≤ h · a,  bottom ≤ h

  What keeps them there differs from gesture to gesture:

      draw, resize   the box grows from an anchor on the canvas, so there is room for
                     any width once it is capped by both axes
      move           the corner is clamped to the room that the box leaves
      canvas         both axes are scaled by the same factor

  An anchor is a corner of a placed box or a point clamped to the canvas.  The pointer
  itself may be anywhere; that its coordinates are finite is needed where they are
  clamped, since an undefined coordinate passes a clamp.

  Main result: `crop_stays_on_canvas`, for every run of steps, and of resizes between
  gestures.
-/
import GifEdit.Proofs.Editor.Snapshot
import GifEdit.Proofs.Geometry.Fitting

namespace GifEdit

open Exact

/-! ## §1. Places on a canvas. -/

/-- A point of the canvas of height `h` for proportions `a`. -/
inductive Point.OnCanvas (a h : ℚ) : Point Exact → Prop where
  | mk {x y : ℚ} : 0 ≤ x → x ≤ h * a → 0 ≤ y → y ≤ h → OnCanvas a h ⟨rational x, rational y⟩

/-- A box of proportions `a` on the canvas of height `h`. -/
inductive Box.Placed (a h : ℚ) : Box Exact → Prop where
  | mk {x y w k : ℚ} : 0 ≤ x → 0 ≤ y → 0 ≤ k → w = k * a → x + w ≤ h * a → y + k ≤ h →
      Placed a h ⟨rational x, rational y, rational w, rational k⟩

variable {a h : ℚ} {b : Box Exact} {p : Point Exact}

/-- A box without extents has any proportions. -/
theorem Point.OnCanvas.ofPoint_placed (hp : p.OnCanvas a h) : (Box.ofPoint p).Placed a h := by
  obtain ⟨hx, hxw, hy, hyh⟩ := hp
  unfold Box.ofPoint
  simp only [literal_eq, Nat.cast_zero]
  exact .mk hx hy le_rfl (zero_mul a).symm (by linarith) (by linarith)

/-- The corners of a box are where the box is. -/
theorem Box.Placed.corner_onCanvas (hb : b.Placed a h) (ha : 0 < a) (handle : Handle) :
    (handle.corner b).OnCanvas a h := by
  obtain ⟨hx, hy, hk, rfl, hright, hbottom⟩ := hb
  have hwidth := mul_nonneg hk ha.le
  cases handle with
  | topLeft => exact .mk hx (by linarith) hy (by linarith)
  | topRight => exact .mk (by linarith) hright hy (by linarith)
  | bottomLeft => exact .mk hx (by linarith) (by linarith) hbottom
  | bottomRight => exact .mk (by linarith) hright (by linarith) hbottom

/-- **A canvas of another height carries the box along.** -/
theorem Box.Placed.scaled (hb : b.Placed a h) (ha : 0 < a) (hh : 0 < h) {h' : ℚ} (hh' : 0 < h') :
    (b.scaled (rational (h' * a) / rational (h * a)) (rational h' / rational h)).Placed a h' := by
  obtain ⟨hx, hy, hk, rfl, hright, hbottom⟩ := hb
  have hfactor : 0 < h' / h := div_pos hh' hh
  -- The proportions cancel, so the factors of the axes agree.
  have hsame : h' * a / (h * a) = h' / h := mul_div_mul_right h' h ha.ne'
  have hheight : h * (h' / h) = h' := mul_div_cancel₀ h' hh.ne'
  unfold Box.scaled
  simp only [rational_div (mul_pos hh ha).ne', rational_div hh.ne', hsame, rational_mul]
  refine .mk (mul_nonneg hx hfactor.le) (mul_nonneg hy hfactor.le) (mul_nonneg hk hfactor.le)
    (mul_right_comm _ _ _) ?_ ?_
  · calc _ = (_ + _) * (h' / h) := (add_mul _ _ _).symm
      _ ≤ h * a * (h' / h) := mul_le_mul_of_nonneg_right hright hfactor.le
      _ = h' * a := by rw [mul_right_comm, hheight]
  · calc _ = (_ + _) * (h' / h) := (add_mul _ _ _).symm
      _ ≤ h * (h' / h) := mul_le_mul_of_nonneg_right hbottom hfactor.le
      _ = h' := hheight

/-! ## §2. Boxes that grow and slide.

Along each axis a box grows from its anchor, back towards zero or on towards the far edge; a
box that is carried slides where it leaves room. -/

/-- How far a box can grow from `u` along an axis of length `l`. -/
def growthRoom (back : Bool) (u l : ℚ) : ℚ := if back then u else l - u

/-- Where a box that grew by `w` from `u` begins. -/
def growthStart (back : Bool) (u w : ℚ) : ℚ := if back then u - w else u

variable {u l w : ℚ}

/-- The room of a side that grows, as a rational number. -/
theorem growthRoom_eq (back : Bool) :
    (if back then rational u else rational l - rational u) = rational (growthRoom back u l) := by
  cases back with
  | true => rfl
  | false => exact rational_sub

theorem growthStart_eq (back : Bool) :
    (if back then rational u - rational w else rational u) = rational (growthStart back u w) := by
  cases back with
  | true => exact rational_sub
  | false => rfl

theorem growthRoom_nonneg (back : Bool) (hu : 0 ≤ u) (hl : u ≤ l) : 0 ≤ growthRoom back u l := by
  cases back with
  | true => exact hu
  | false => exact sub_nonneg.mpr hl

/-- What grew no further than there is room lies on the axis. -/
theorem growth_mem (back : Bool) (hu : 0 ≤ u) (hl : u ≤ l) (hw : w ≤ growthRoom back u l) :
    0 ≤ growthStart back u w ∧ growthStart back u w + w ≤ l := by
  cases back with
  | true =>
      have hroom : w ≤ u := hw
      show 0 ≤ u - w ∧ u - w + w ≤ l
      exact ⟨by linarith, by linarith⟩
  | false =>
      have hroom : w ≤ l - u := hw
      show 0 ≤ u ∧ u + w ≤ l
      exact ⟨hu, by linarith⟩

/-- Where a box slides that is at `u` and moved by `d`, if it has the room `l`. -/
def slide (l u d : ℚ) : ℚ := max 0 (min (u + d) l)

/-- A box that slides does not leave its room. -/
theorem slide_mem (hl : 0 ≤ l) (u d : ℚ) : 0 ≤ slide l u d ∧ slide l u d ≤ l :=
  ⟨le_max_left _ _, max_le hl (min_le_right _ _)⟩

/-! ## §3. The invariant. -/

namespace Cropper

/-- The canvas shows a video of proportions `a` at height `h`. -/
structure Shows (a h : ℚ) (c : Cropper Exact) : Prop where
  canvas : c.canvas = Size.ofHeight a h
  aspect : (c.source.aspect : Exact) = rational a
  aspect_pos : 0 < a
  height_pos : 0 < h

end Cropper

/-- What a gesture remembers lies on the canvas; a box is moved by finite steps. -/
inductive CropMode.InBounds (a h : ℚ) : CropMode Exact → Prop where
  | idle : InBounds a h .idle
  | drawing {anchor : Point Exact} {previous : Option (Box Exact)} : anchor.OnCanvas a h →
      (∀ b ∈ previous, b.Placed a h) → InBounds a h (.drawing anchor previous)
  | resizing {handle : Handle} {anchor : Point Exact} : anchor.OnCanvas a h →
      InBounds a h (.resizing handle anchor)
  | moving {x y : ℚ} : InBounds a h (.moving ⟨rational x, rational y⟩)

namespace Cropper

/-- Whatever box the cropper holds is placed on its canvas. -/
structure InBounds (a h : ℚ) (c : Cropper Exact) : Prop extends Shows a h c where
  crop : ∀ b ∈ c.crop, b.Placed a h
  mode : c.mode.InBounds a h

variable {c : Cropper Exact}

/-- The part of the invariant that only a change of the canvas touches. -/
theorem Shows.of_eq (hc : c.Shows a h) {c' : Cropper Exact} (hcanvas : c'.canvas = c.canvas)
    (hsource : c'.source = c.source) : c'.Shows a h :=
  ⟨hcanvas.trans hc.canvas, by rw [hsource]; exact hc.aspect, hc.aspect_pos, hc.height_pos⟩

/-! ## §4. Boxes that gestures make. -/

/-- **Whatever width is asked for**, the box grows from its anchor by a width that leaves it
on the canvas. -/
theorem anchoredBox_eq (hc : c.Shows a h) {x y : ℚ}
    (hp : Point.OnCanvas a h ⟨rational x, rational y⟩) (left top : Bool) (width : Exact) :
    ∃ w, 0 ≤ w ∧ w ≤ growthRoom left x (h * a) ∧ w / a ≤ growthRoom top y h
      ∧ c.anchoredBox ⟨rational x, rational y⟩ left top width
        = ⟨rational (growthStart left x w), rational (growthStart top y (w / a)), rational w,
            rational (w / a)⟩ := by
  obtain ⟨hx, hxw, hy, hyh⟩ := hp
  have ha := hc.aspect_pos
  have hroomX := growthRoom_nonneg left hx hxw
  have hroomY := growthRoom_nonneg top hy hyh
  obtain ⟨w, hw, hw0, hwmax⟩ :=
    max_min_eq width 0 (min (growthRoom left x (h * a)) (growthRoom top y h * a))
  rw [max_eq_right (le_min hroomX (mul_nonneg hroomY ha.le))] at hwmax
  have hwidth : w ≤ growthRoom left x (h * a) := hwmax.trans (min_le_left _ _)
  -- The cap across the other axis leaves room for the height.
  have hheight : w / a ≤ growthRoom top y h := (div_le_iff₀ ha).mpr (hwmax.trans (min_le_right _ _))
  have hleft := (growth_mem left hx hxw hwidth).1
  have htop := (growth_mem top hy hyh hheight).1
  refine ⟨w, hw0, hwidth, hheight, ?_⟩
  unfold anchoredBox
  simp only [hc.canvas, Size.ofHeight, hc.aspect, growthRoom_eq, rational_mul, min_min_rational,
    literal_eq, Nat.cast_zero, hw, rational_div ha.ne', growthStart_eq, max_rational,
    max_eq_left hleft, max_eq_left htop]

/-- The box that grows from an anchor on the canvas is placed. -/
theorem anchoredBox_placed (hc : c.Shows a h) (hp : p.OnCanvas a h) (left top : Bool)
    (width : Exact) : (c.anchoredBox p left top width).Placed a h := by
  have hp' := hp
  obtain ⟨hx, hxw, hy, hyh⟩ := hp
  obtain ⟨w, hw, hwidth, hheight, hbox⟩ := anchoredBox_eq hc hp' left top width
  obtain ⟨hleft, hright⟩ := growth_mem left hx hxw hwidth
  obtain ⟨htop, hbottom⟩ := growth_mem top hy hyh hheight
  have ha := hc.aspect_pos
  rw [hbox]
  exact .mk hleft htop (div_nonneg hw ha.le) (div_mul_cancel₀ w ha.ne').symm hright hbottom

/-- A finite point is clamped to the canvas. -/
theorem clampToCanvas_onCanvas (hc : c.Shows a h) (x y : ℚ) :
    (c.clampToCanvas ⟨rational x, rational y⟩).OnCanvas a h := by
  have hwidth : 0 ≤ h * a := (mul_pos hc.height_pos hc.aspect_pos).le
  unfold clampToCanvas
  simp only [hc.canvas, Size.ofHeight, literal_eq, Nat.cast_zero, max_rational,
    max_eq_left hwidth, max_eq_left hc.height_pos.le, clamp_rational hwidth,
    clamp_rational hc.height_pos.le]
  exact .mk (le_max_left _ _) (max_le hwidth (min_le_right _ _)) (le_max_left _ _)
    (max_le hc.height_pos.le (min_le_right _ _))

/-- A box that is carried keeps its extents, and slides as far as they leave room. -/
theorem movedBox_eq (hc : c.Shows a h) {bx by' w k : ℚ}
    (hb : Box.Placed a h ⟨rational bx, rational by', rational w, rational k⟩)
    (lastX lastY x y : ℚ) :
    c.movedBox ⟨rational bx, rational by', rational w, rational k⟩
        ⟨rational lastX, rational lastY⟩ ⟨rational x, rational y⟩
      = ⟨rational (slide (h * a - w) bx (x - lastX)), rational (slide (h - k) by' (y - lastY)),
          rational w, rational k⟩ := by
  obtain ⟨hbx, hby, hk, hw, hright, hbottom⟩ := hb
  have hroomX : 0 ≤ h * a - w := by linarith
  have hroomY : 0 ≤ h - k := by linarith
  unfold movedBox Point.deltaFrom slide
  simp only [hc.canvas, Size.ofHeight, literal_eq, Nat.cast_zero, rational_sub, rational_add,
    max_rational, max_eq_left hroomX, max_eq_left hroomY, clamp_rational hroomX,
    clamp_rational hroomY]

/-- A box that is carried stays on the canvas. -/
theorem movedBox_placed (hc : c.Shows a h) (hb : b.Placed a h) (lastX lastY x y : ℚ) :
    (c.movedBox b ⟨rational lastX, rational lastY⟩ ⟨rational x, rational y⟩).Placed a h := by
  have hb' := hb
  obtain ⟨hbx, hby, hk, hw, hright, hbottom⟩ := hb
  rename_i bx by' w k
  obtain ⟨hleft, hfarX⟩ := slide_mem (sub_nonneg.mpr (show w ≤ h * a by linarith)) bx (x - lastX)
  obtain ⟨htop, hfarY⟩ := slide_mem (sub_nonneg.mpr (show k ≤ h by linarith)) by' (y - lastY)
  rw [movedBox_eq hc hb']
  exact .mk hleft htop hk hw (by linarith) (by linarith)

/-! ## §5. One event. -/

/-- Without a box nothing is out of bounds. -/
theorem inBounds_fresh {tuning : CropTuning Exact} {source : Frame} {canvas : Size Exact}
    (hc : (fresh tuning source canvas).Shows a h) : (fresh tuning source canvas).InBounds a h :=
  ⟨hc, fun _ hb => (nomatch hb), .idle⟩

theorem inBounds_clear (hc : c.InBounds a h) : c.clear.InBounds a h :=
  ⟨hc.toShows.of_eq rfl rfl, fun _ hb => (nomatch hb), .idle⟩

/-- A press anchors its gesture on the canvas. -/
theorem inBounds_down (hc : c.InBounds a h) (x y : ℚ) :
    (c.down ⟨rational x, rational y⟩).InBounds a h := by
  unfold down
  split
  · rename_i handle b _ hb
    exact ⟨hc.toShows.of_eq rfl rfl, hc.crop,
      .resizing ((hc.crop b hb).corner_onCanvas hc.aspect_pos handle.opposite)⟩
  · exact ⟨hc.toShows.of_eq rfl rfl, hc.crop, .moving⟩
  · have hanchor := clampToCanvas_onCanvas hc.toShows x y
    refine ⟨hc.toShows.of_eq rfl rfl, ?_, .drawing hanchor hc.crop⟩
    rintro b ⟨rfl⟩
    exact hanchor.ofPoint_placed

/-- A motion makes a new box from what the gesture remembers. -/
theorem inBounds_move (hc : c.InBounds a h) (x y : ℚ) :
    (c.move ⟨rational x, rational y⟩).InBounds a h := by
  have hmode := hc.mode
  unfold move
  generalize hm : c.mode = mode at hmode
  cases hmode with
  | idle => exact hc
  | drawing hanchor hprevious =>
      refine ⟨hc.toShows.of_eq rfl rfl, ?_, .drawing hanchor hprevious⟩
      rintro b ⟨rfl⟩
      exact anchoredBox_placed hc.toShows hanchor _ _ _
  | resizing hanchor =>
      refine ⟨hc.toShows.of_eq rfl rfl, ?_, .resizing hanchor⟩
      rintro b ⟨rfl⟩
      exact anchoredBox_placed hc.toShows hanchor _ _ _
  | moving =>
      refine ⟨hc.toShows.of_eq rfl rfl, ?_, .moving⟩
      intro moved hmoved
      obtain ⟨b, hb, rfl⟩ := Option.mem_map.mp hmoved
      exact movedBox_placed hc.toShows (hc.crop b hb) _ _ _ _

/-- A release keeps the box or brings back the one that was remembered. -/
theorem inBounds_release (hc : c.InBounds a h) (playhead : Exact) :
    (c.release playhead).1.InBounds a h := by
  have hmode := hc.mode
  unfold release
  generalize c.mode = mode at hmode
  cases hmode with
  | idle => exact hc
  | drawing hanchor hprevious =>
      dsimp only
      split
      · exact ⟨hc.toShows.of_eq rfl rfl, hc.crop, .idle⟩
      · exact ⟨hc.toShows.of_eq rfl rfl, hprevious, .idle⟩
  | resizing hanchor =>
      dsimp only
      split <;> exact ⟨hc.toShows.of_eq rfl rfl, hc.crop, .idle⟩
  | moving =>
      dsimp only
      split <;> exact ⟨hc.toShows.of_eq rfl rfl, hc.crop, .idle⟩

/-- **One event with finite coordinates.** -/
theorem inBounds_handle (hc : c.InBounds a h) (phase : Phase) (x y : ℚ) (playhead : Exact) :
    (c.handle ⟨phase, rational x, rational y⟩ playhead).1.InBounds a h := by
  cases phase with
  | down => exact inBounds_down hc x y
  | move => exact inBounds_move hc x y
  | up => exact inBounds_release hc playhead
  | leave => exact inBounds_release hc playhead

/-- Marking the zoom-in leaves the boxes alone. -/
theorem inBounds_markZoomIn (hc : c.InBounds a h) (playhead : Exact) :
    (c.markZoomIn playhead).1.InBounds a h := by
  unfold markZoomIn
  split
  · exact ⟨hc.toShows.of_eq rfl rfl, hc.crop, hc.mode⟩
  · exact hc

/-- A change between two canvases that can be seen scales the crop. -/
theorem setCanvas_crop {α : Type} [Scalar α] {c : Cropper α} {size : Size α}
    (hbefore : c.canvas.isEmpty = false) (hafter : size.isEmpty = false) :
    (c.setCanvas size).crop
      = c.crop.map (·.scaled (size.width / c.canvas.width) (size.height / c.canvas.height)) := by
  unfold setCanvas
  simp only [hbefore, hafter]
  cases c.crop <;> rfl

/-- **Between gestures the canvas may change**; the anchors of a gesture would stay behind. -/
theorem inBounds_setCanvas (hc : c.InBounds a h) (hidle : c.mode.isIdle = true) {h' : ℚ}
    (hh' : 0 < h') : (c.setCanvas (Size.ofHeight a h')).InBounds a h' := by
  have hopen (k : ℚ) (hk : 0 < k) : (Size.ofHeight a k).isEmpty = false := by
    simp [Size.isEmpty, Size.ofHeight, hk, mul_pos hk hc.aspect_pos]
  refine ⟨⟨rfl, hc.aspect, hc.aspect_pos, hh'⟩, ?_, ?_⟩
  · intro b hb
    have hbefore : c.canvas.isEmpty = false := by rw [hc.canvas, hopen h hc.height_pos]
    rw [setCanvas_crop hbefore (hopen h' hh'), hc.canvas] at hb
    obtain ⟨b, hcrop, rfl⟩ := Option.mem_map.mp hb
    exact (hc.crop b hcrop).scaled hc.aspect_pos hc.height_pos hh'
  · show c.mode.InBounds a h'
    cases hm : c.mode with
    | idle => exact .idle
    | drawing => exact absurd hidle (by simp [hm, CropMode.isIdle])
    | resizing => exact absurd hidle (by simp [hm, CropMode.isIdle])
    | moving => exact absurd hidle (by simp [hm, CropMode.isIdle])

end Cropper

/-! ## §6. The boxes of a session. -/

variable {α : Type}

/-- The box that comes back if the one being drawn is too small. -/
def CropMode.remembered : CropMode α → Option (Box α)
  | .drawing _ previous => previous
  | .idle | .resizing _ _ | .moving _ => none

/-- All boxes that a cropper holds. -/
def Cropper.boxes (c : Cropper α) : List (Box α) := c.crop.toList ++ c.mode.remembered.toList

/-- A box on a canvas that keeps its proportions. -/
structure Box.LiesOn [Scalar α] (b : Box α) (canvas : Size α) (aspect : α) : Prop where
  left : 0 ≤ b.x
  top : 0 ≤ b.y
  right : b.right ≤ canvas.width
  bottom : b.bottom ≤ canvas.height
  width : 0 ≤ b.width
  height : 0 ≤ b.height
  proportions : b.width = b.height * aspect

instance [Scalar α] [DecidableEq α] (b : Box α) (canvas : Size α) (aspect : α) :
    Decidable (b.LiesOn canvas aspect) :=
  decidable_of_iff (0 ≤ b.x ∧ 0 ≤ b.y ∧ b.right ≤ canvas.width ∧ b.bottom ≤ canvas.height
      ∧ 0 ≤ b.width ∧ 0 ≤ b.height ∧ b.width = b.height * aspect)
    ⟨fun ⟨left, top, right, bottom, width, height, proportions⟩ =>
      ⟨left, top, right, bottom, width, height, proportions⟩,
    fun h => ⟨h.left, h.top, h.right, h.bottom, h.width, h.height, h.proportions⟩⟩

/-- A box that is placed lies on its canvas. -/
theorem Box.Placed.liesOn (hb : b.Placed a h) (ha : 0 < a) :
    b.LiesOn (Size.ofHeight a h) (rational a) := by
  obtain ⟨hx, hy, hk, rfl, hright, hbottom⟩ := hb
  have hwidth := mul_nonneg hk ha.le
  constructor
  case proportions => rfl
  all_goals
    simp only [literal_eq, Nat.cast_zero, Box.right, Box.bottom, Size.ofHeight, rational_add,
      rational_le]
    assumption

/-- **Every box of a cropper lies on its canvas.** -/
theorem Cropper.InBounds.liesOn {c : Cropper Exact} (hc : c.InBounds a h) :
    ∀ b ∈ c.boxes, b.LiesOn c.canvas c.source.aspect := by
  intro b hb
  rw [hc.canvas, hc.aspect]
  refine Box.Placed.liesOn ?_ hc.aspect_pos
  have hmode := hc.mode
  unfold boxes at hb
  rcases List.mem_append.mp hb with hcrop | hprevious
  · exact hc.crop b (Option.mem_toList.mp hcrop)
  · generalize c.mode = mode at hmode hprevious
    cases hmode with
    | drawing _ hplaced => exact hplaced b (Option.mem_toList.mp hprevious)
    | idle => exact nomatch hprevious
    | resizing _ => exact nomatch hprevious
    | moving => exact nomatch hprevious

namespace Session

/-- Whether an action may happen: the pointer is somewhere, and the canvas gets a
container with room, between two gestures. -/
def permits [Scalar α] (s : Session α) : SessionAction α → Bool
  | .step (.canvas _ x y) => Scalar.isFinite x && Scalar.isFinite y
  | .step _ => true
  | .resize container => s.crop.mode.isIdle && container.hasRoom

/-- Whether actions may happen one after the other. -/
def permitsAll [Scalar α] (s : Session α) : List (SessionAction α) → Bool
  | [] => true
  | action :: actions => s.permits action && (s.act action).permitsAll actions

/-- The canvas shows the frame `f` of the clip, and all boxes are placed on it. -/
structure BoxesPlaced (f : Frame) (s : Session Exact) : Prop where
  clip : s.source.frame = f
  shown : s.crop.source = f
  pixels : f.HasPixels
  crop : ∃ h, s.crop.InBounds f.proportion h

variable {f : Frame} {s s' : Session Exact}

/-- The clip stays, so only the canvas is left to look at. -/
theorem BoxesPlaced.of_follows (hs : s.BoxesPlaced f) (hfollows : s.Follows s')
    (hcrop : ∃ h, s'.crop.InBounds f.proportion h) : s'.BoxesPlaced f := by
  refine ⟨?_, hfollows.frame.trans hs.shown, hs.pixels, hcrop⟩
  rw [hfollows.source]
  exact hs.clip

/-- Marking a zoom-in does to the crop what the cropper does. -/
theorem markZoomIn_crop [Scalar α] (s : Session α) :
    s.markZoomIn.1.crop = (s.crop.markZoomIn s.timeline.playhead).1 := by
  unfold markZoomIn Cropper.markZoomIn
  by_cases hcrop : s.crop.crop.isSome = true
  · simp only [hcrop, if_true]
    rfl
  · simp only [hcrop]
    rfl

/-- **One action.** -/
theorem boxesPlaced_act (hs : s.BoxesPlaced f) (action : SessionAction Exact)
    (hpermits : s.permits action = true) : (s.act action).BoxesPlaced f := by
  refine hs.of_follows (s.act_follows action) ?_
  obtain ⟨h, hcrop⟩ := hs.crop
  cases action with
  | resize container =>
      obtain ⟨hidle, hroom⟩ := Bool.and_eq_true_iff.mp hpermits
      obtain ⟨h', hh', hfit⟩ := Size.fit_eq hs.pixels hroom
      refine ⟨h', ?_⟩
      show (s.crop.setCanvas (container.fit s.source.frame)).InBounds _ _
      rw [hs.clip, hfit]
      exact Cropper.inBounds_setCanvas hcrop hidle hh'
  | step step =>
      refine ⟨h, ?_⟩
      cases step with
      | canvas phase x y =>
          obtain ⟨hx, hy⟩ := Bool.and_eq_true_iff.mp hpermits
          obtain ⟨x, rfl⟩ := isFinite_iff.mp hx
          obtain ⟨y, rfl⟩ := isFinite_iff.mp hy
          exact Cropper.inBounds_handle hcrop phase x y s.timeline.playhead
      | markZoomIn =>
          show s.markZoomIn.1.crop.InBounds _ _
          rw [markZoomIn_crop]
          exact Cropper.inBounds_markZoomIn hcrop s.timeline.playhead
      | clearCrop => exact Cropper.inBounds_clear hcrop
      -- The other steps have nothing to do with the canvas.
      | timeline phase x => exact hcrop
      | seek t => exact hcrop
      | placeZoomOut => exact hcrop
      | preset quality => exact hcrop

/-- **A run of actions.** -/
theorem boxesPlaced_run (actions : List (SessionAction Exact)) (hs : s.BoxesPlaced f)
    (hpermits : s.permitsAll actions = true) : (s.run actions).BoxesPlaced f := by
  induction actions generalizing s with
  | nil => exact hs
  | cons action actions ih =>
      obtain ⟨hfirst, hrest⟩ := Bool.and_eq_true_iff.mp hpermits
      exact ih (boxesPlaced_act hs action hfirst) hrest

/-- A session starts with an empty canvas that shows its clip. -/
theorem boxesPlaced_start {source : Clip Exact} {config : Config Exact} {container : Size Exact}
    {track : Track Exact} (hroom : container.hasRoom = true)
    (hstart : start source config container track = .ok s) : s.BoxesPlaced source.frame := by
  obtain ⟨hsource, settings, background, -, -, rfl⟩ := start_eq_ok.mp hstart
  have hpixels := Clip.frame_hasPixels hsource
  obtain ⟨h, hh, hfit⟩ := Size.fit_eq hpixels hroom
  exact ⟨rfl, rfl, hpixels, h, Cropper.inBounds_fresh
    ⟨hfit, Frame.aspect_eq hpixels, Frame.proportion_pos hpixels, hh⟩⟩

/-- **A CROP NEVER LEAVES THE CANVAS AND KEEPS THE PROPORTIONS OF THE VIDEO**: after any
steps, with the pointer at finite places, and any resizes between gestures, this holds of
the crop and of the box that a drawing gesture would bring back. -/
theorem crop_stays_on_canvas (source : Clip Exact) (config : Config Exact)
    (container : Size Exact) (track : Track Exact) (s : Session Exact)
    (actions : List (SessionAction Exact)) (hroom : container.hasRoom = true)
    (hstart : start source config container track = .ok s)
    (hpermits : s.permitsAll actions = true) :
    ∀ b ∈ (s.run actions).crop.boxes,
      b.LiesOn (s.run actions).crop.canvas source.frame.aspect := by
  have hrun := boxesPlaced_run actions (boxesPlaced_start hroom hstart) hpermits
  obtain ⟨h, hcrop⟩ := hrun.crop
  rw [← hrun.shown]
  exact hcrop.liesOn

/-- A box is drawn and committed, the canvas grows, its corner is dragged far beyond the
opposite one and the canvas, and then another box is begun while the first is remembered. -/
theorem crop_stays_on_canvas_redrawn :
    let source : Clip Exact := ⟨"clip.mp4", 10, 640, 360⟩
    let config : Config Exact := {}
    let container : Size Exact := ⟨320, 200⟩
    let s : Session Exact := {
      source := source
      crop := Cropper.fresh config.interaction.cropTuning source.frame (container.fit source.frame)
      timeline := Timeline.fresh config.interaction.timelineTuning 10 ⟨0, 1000⟩
      exportSettings := .standard
      background := .standard }
    let actions : List (SessionAction Exact) :=
      [.step (.canvas .down 40 30), .step (.canvas .move 120 90), .step (.canvas .up 120 90),
        .resize ⟨640, 400⟩, .step (.canvas .down 240 150), .step (.canvas .move (-900) 700),
        .step (.canvas .leave 0 0), .step (.canvas .down 600 300), .step (.canvas .move 440 200)]
    let done := s.run actions
    start source config container ⟨0, 1000⟩ = .ok s ∧ s.permitsAll actions = true
      ∧ done.crop.boxes = [⟨440, 210, 160, 90⟩, ⟨80, 60, 8, 4.5⟩]
      ∧ ∀ b ∈ done.crop.boxes, b.LiesOn done.crop.canvas source.frame.aspect := by
  intro source config container s actions done
  have hstart : start source config container ⟨0, 1000⟩ = .ok s := by decide +kernel
  have hpermits : s.permitsAll actions = true := by decide +kernel
  refine ⟨hstart, hpermits, by decide +kernel, ?_⟩
  exact crop_stays_on_canvas source config container ⟨0, 1000⟩ s actions rfl hstart hpermits

end Session
end GifEdit
