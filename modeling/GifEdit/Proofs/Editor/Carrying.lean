/-
  GifEdit.Proofs.Editor.Carrying
  ──────────────────────────────
  **A BOX THAT WAS STOPPED AT AN EDGE NO LONGER FOLLOWS THE POINTER.**

  A box is carried step by step: a motion moves it by what the pointer moved since the motion
  before, and no further than the edges of the canvas.  Nothing remembers where the box was
  grabbed, so what an edge took from a step is lost:

      pointer   +d₁                 +d₂                 …
      box       +d₁, or to an edge  +d₂, or to an edge  …

  A pointer that goes beyond an edge and comes back to the press therefore leaves the box
  elsewhere, where drawing and resizing, which hang on an anchor, would not.

  Along an axis a step is `slide`.  Two boxes slide alike to every place of the pointer just
  if there is no room to slide, or if they are as far from it (`forall_slide_eq_iff`).  So a
  box keeps up with the pointer as long as it came along in full; and it does where no edge
  is in the way of any step.

  Main results: `carried_box_follows_pointer_iff` and, for a box that does not,
  `carried_box_lags_behind`.
-/
import GifEdit.Proofs.Editor.Anchors

namespace GifEdit

open Exact

/-! ## §1. Sliding along an axis. -/

section Axis

variable {l u u' d q q' : ℚ}

/-- A step with no edge in its way is made in full. -/
theorem slide_of_mem (hlow : 0 ≤ u + d) (hhigh : u + d ≤ l) : slide l u d = u + d := by
  unfold slide
  rw [min_eq_left hhigh, max_eq_right hlow]

/-- Without room nothing slides. -/
theorem slide_zero (u d : ℚ) : slide 0 u d = 0 :=
  max_eq_left (min_le_right _ _)

/-- **Who slides alike.**  If there is room, a place of the pointer that brings one of them
into the middle tells how far both are from the pointer. -/
theorem forall_slide_eq_iff (hl : 0 ≤ l) :
    (∀ p, slide l u' (p - q') = slide l u (p - q)) ↔ l = 0 ∨ u' - u = q' - q := by
  constructor
  · intro h
    rcases hl.eq_or_lt with hzero | hpos
    · exact .inl hzero.symm
    · right
      have hmiddle := h (q - u + l / 2)
      rw [slide_of_mem (u := u) (by linarith) (by linarith)] at hmiddle
      unfold slide at hmiddle
      -- The middle is no edge, so the other one was not stopped there.
      have hinside : min (u' + (q - u + l / 2 - q')) l = l / 2 := by
        rcases max_choice (0 : ℚ) (min (u' + (q - u + l / 2 - q')) l) with hmax | hmax
        · linarith
        · linarith
      rcases min_choice (u' + (q - u + l / 2 - q')) l with hmin | hmin
      · linarith
      · linarith
  · rintro (rfl | hsame) p
    · rw [slide_zero, slide_zero]
    · have hstep : u' + (p - q') = u + (p - q) := by linarith
      unfold slide
      rw [hstep]

end Axis

/-! ## §2. Steps. -/

variable {α : Type}

/-- The box at a distance from where it is. -/
def Box.movedBy [Scalar α] (b : Box α) (d : α × α) : Box α :=
  ⟨b.x + d.1, b.y + d.2, b.width, b.height⟩

namespace Cropper

/-- The pointer, last at `(qx, qy)`, carries a box of `w` by `k` at `(x, y)`. -/
structure Carries (a h : ℚ) (c : Cropper Exact) (w k x y qx qy : ℚ) : Prop
    extends Shows a h c where
  placed : Box.Placed a h ⟨rational x, rational y, rational w, rational k⟩
  crop : c.crop = some ⟨rational x, rational y, rational w, rational k⟩
  mode : c.mode = .moving ⟨rational qx, rational qy⟩

variable {a h w k x y qx qy x' y' qx' qy' : ℚ} {c c' : Cropper Exact}

/-- A box leaves room to the right exactly if it leaves room below. -/
theorem Carries.room (hc : c.Carries a h w k x y qx qy) :
    0 ≤ h * a - w ∧ 0 ≤ h - k ∧ (h * a - w = 0 ↔ h - k = 0) := by
  obtain ⟨hx, hy, -, hw, hright, hbottom⟩ := hc.placed
  have hproportions : h * a - w = (h - k) * a := by
    rw [hw, sub_mul]
  refine ⟨by linarith, by linarith, ?_⟩
  rw [hproportions, mul_eq_zero, or_iff_left hc.aspect_pos.ne']

/-- **One step.** -/
theorem Carries.move (hc : c.Carries a h w k x y qx qy) (px py : ℚ) :
    (c.move ⟨rational px, rational py⟩).Carries a h w k (slide (h * a - w) x (px - qx))
      (slide (h - k) y (py - qy)) px py := by
  have hplaced := movedBox_placed hc.toShows hc.placed qx qy px py
  have hbox := movedBox_eq hc.toShows hc.placed qx qy px py
  rw [hbox] at hplaced
  unfold Cropper.move
  rw [hc.mode]
  refine ⟨hc.toShows.of_eq rfl rfl, hplaced, ?_, rfl⟩
  show c.crop.map _ = _
  rw [hc.crop, ← hbox]
  rfl

/-- A pointer that stays where it is leaves the box where it is. -/
theorem Carries.move_here (hc : c.Carries a h w k x y qx qy) :
    (c.move ⟨rational qx, rational qy⟩).crop
      = some ⟨rational x, rational y, rational w, rational k⟩ := by
  obtain ⟨hx, hy, -, -, hright, hbottom⟩ := hc.placed
  rw [(hc.move qx qy).crop, sub_self, sub_self, slide_of_mem (by linarith) (by linarith),
    slide_of_mem (by linarith) (by linarith), add_zero, add_zero]

/-- **Steps in a row**: the box keeps its extents. -/
theorem Carries.moveAll (hc : c.Carries a h w k x y qx qy) (way : List (Point Exact))
    (hway : ∀ p ∈ way, p.isFinite = true) :
    ∃ x' y' qx' qy', way.getLast?.getD ⟨rational qx, rational qy⟩ = ⟨rational qx', rational qy'⟩
      ∧ (c.moveAll way).Carries a h w k x' y' qx' qy' := by
  induction way generalizing c x y qx qy with
  | nil => exact ⟨x, y, qx, qy, rfl, hc⟩
  | cons p way ih =>
      rw [List.forall_mem_cons] at hway
      obtain ⟨px, py, rfl⟩ := Point.isFinite_iff.mp hway.1
      obtain ⟨x', y', qx', qy', hlast, hcarries⟩ := ih (hc.move px py) hway.2
      refine ⟨x', y', qx', qy', ?_, hcarries⟩
      rw [List.getLast?_cons, Option.getD_some]
      exact hlast

/-- **Steps with no edge in their way**: the box comes along in full. -/
theorem Carries.moveAll_of_free (hc : c.Carries a h w k x y qx qy) (way : List (Point Exact))
    (hway : ∀ p ∈ way, ∃ px py : ℚ, p = ⟨rational px, rational py⟩
      ∧ (0 ≤ x + (px - qx) ∧ x + (px - qx) ≤ h * a - w)
      ∧ (0 ≤ y + (py - qy) ∧ y + (py - qy) ≤ h - k)) :
    ∃ qx' qy', way.getLast?.getD ⟨rational qx, rational qy⟩ = ⟨rational qx', rational qy'⟩
      ∧ (c.moveAll way).Carries a h w k (x + (qx' - qx)) (y + (qy' - qy)) qx' qy' := by
  induction way generalizing c x y qx qy with
  | nil =>
      refine ⟨qx, qy, rfl, ?_⟩
      rw [sub_self, sub_self, add_zero, add_zero]
      exact hc
  | cons p way ih =>
      rw [List.forall_mem_cons] at hway
      obtain ⟨⟨px, py, rfl, hacross, hdown⟩, hrest⟩ := hway
      have hstep := hc.move px py
      rw [slide_of_mem hacross.1 hacross.2, slide_of_mem hdown.1 hdown.2] at hstep
      -- Seen from the next point, the box and the pointer have moved alike.
      have hx (r : ℚ) : x + (px - qx) + (r - px) = x + (r - qx) := by linarith
      have hy (r : ℚ) : y + (py - qy) + (r - py) = y + (r - qy) := by linarith
      have hnext := ih hstep
      simp only [hx, hy] at hnext
      obtain ⟨qx', qy', hlast, hcarries⟩ := hnext hrest
      refine ⟨qx', qy', ?_, hcarries⟩
      rw [List.getLast?_cons, Option.getD_some]
      exact hlast

/-! ## §3. Keeping up with the pointer. -/

/-- Wherever the pointer goes next, two croppers show the same crop. -/
def MovesAlike [Scalar α] (c' c : Cropper α) : Prop :=
  ∀ p : Point α, p.isFinite = true → (c'.move p).crop = (c.move p).crop

/-- **Boxes of the same extents are carried alike** exactly if they fill the canvas or are as
far from the pointer. -/
theorem Carries.movesAlike_iff (hc' : c'.Carries a h w k x' y' qx' qy')
    (hc : c.Carries a h w k x y qx qy) :
    c'.MovesAlike c ↔ w = h * a ∨ (x' - x = qx' - qx ∧ y' - y = qy' - qy) := by
  obtain ⟨hroomX, hroomY, hfull⟩ := hc.room
  have hslides : c'.MovesAlike c ↔
      (∀ px, slide (h * a - w) x' (px - qx') = slide (h * a - w) x (px - qx))
        ∧ ∀ py, slide (h - k) y' (py - qy') = slide (h - k) y (py - qy) := by
    constructor
    · intro halike
      have hboth (px py : ℚ) := halike ⟨rational px, rational py⟩ rfl
      simp only [(hc'.move _ _).crop, (hc.move _ _).crop, Option.some.injEq, Box.mk.injEq,
        Exact.rational.injEq, and_true] at hboth
      exact ⟨fun px => (hboth px 0).1, fun py => (hboth 0 py).2⟩
    · rintro ⟨hacross, hdown⟩ p hp
      obtain ⟨px, py, rfl⟩ := Point.isFinite_iff.mp hp
      rw [(hc'.move px py).crop, (hc.move px py).crop, hacross px, hdown py]
  rw [hslides, forall_slide_eq_iff hroomX, forall_slide_eq_iff hroomY, ← hfull, ← or_and_left,
    sub_eq_zero, eq_comm]

/-- A press on the box carries it from there on. -/
theorem carries_down (hc : c.InBounds a h) {px py : ℚ} {q : Point Exact}
    (hmode : (c.down ⟨rational px, rational py⟩).mode = .moving q) :
    ∃ x y w k, c.crop = some ⟨rational x, rational y, rational w, rational k⟩
      ∧ (c.down ⟨rational px, rational py⟩).Carries a h w k x y px py := by
  unfold down at hmode ⊢
  split at hmode
  · exact nomatch hmode
  · rename_i hhit
    -- Nothing is hit without a crop.
    obtain ⟨b, hcrop⟩ : ∃ b, c.crop = some b := by
      refine Option.ne_none_iff_exists'.mp fun hnone => ?_
      unfold hit at hhit
      rw [hnone] at hhit
      exact nomatch hhit
    have hplaced := hc.crop b hcrop
    have hplaced' := hplaced
    obtain ⟨-, -, -, -, -, -⟩ := hplaced
    rename_i x y w k
    exact ⟨x, y, w, k, hcrop, hc.toShows.of_eq rfl rfl, hplaced', hcrop, rfl⟩
  · exact nomatch hmode

/-- A box that would lie on the canvas slides there in full. -/
theorem free_of_liesOn {canvas : Size Exact} {aspect : Exact} {px py : ℚ}
    (hcanvas : canvas = Size.ofHeight a h)
    (hfree : ((Box.mk (rational x) (rational y) (rational w) (rational k)).movedBy
      (Point.deltaFrom ⟨rational px, rational py⟩ ⟨rational qx, rational qy⟩)).LiesOn canvas
        aspect) :
    (0 ≤ x + (px - qx) ∧ x + (px - qx) ≤ h * a - w)
      ∧ (0 ≤ y + (py - qy) ∧ y + (py - qy) ≤ h - k) := by
  obtain ⟨hleft, htop, hright, hbottom, -, -, -⟩ := hfree
  rw [hcanvas] at hright hbottom
  simp only [Box.movedBy, Point.deltaFrom, Box.right, Box.bottom, Size.ofHeight, literal_eq,
    Nat.cast_zero, rational_sub, rational_add, rational_le] at hleft htop hright hbottom
  exact ⟨⟨hleft, by linarith⟩, htop, by linarith⟩

/-- **A CARRIED BOX FOLLOWS THE POINTER EXACTLY IF IT CAME ALONG IN FULL**: whatever events
came before, a press on the box carries it, and it keeps its extents.  After some way, further
motions put it where a single motion from the press would, for every last point of the
pointer, exactly if the box fills the canvas or if the way moved it as far as the pointer.  That
is so if no point of the way asks for a place beyond an edge, and then a pointer that comes
back to the press brings the box back to where it was. -/
theorem carried_box_follows_pointer_iff (tuning : CropTuning Exact) (f : Frame)
    (container : Size Exact) (events : List (PointerEvent Exact × Exact)) (press : Point Exact)
    (way : List (Point Exact)) (hvisible : (container.fit f).isVisible = true)
    (hevents : ∀ e ∈ events, e.1.isFinite = true) (hpress : press.isFinite = true)
    (hway : ∀ p ∈ way, p.isFinite = true) :
    let c := (fresh tuning f (container.fit f)).handleAll events
    let pressed := c.down press
    let carried := pressed.moveAll way
    let reached := way.getLast?.getD press
    ∀ q, pressed.mode = .moving q →
      ∃ b b', c.crop = some b ∧ (pressed.move press).crop = some b
        ∧ carried.crop = some b' ∧ b'.width = b.width ∧ b'.height = b.height
        ∧ ((∀ last : Point Exact, last.isFinite = true →
              (pressed.moveAll (way ++ [last])).crop = (pressed.move last).crop)
            ↔ b.width = c.canvas.width
              ∨ b'.topLeft.deltaFrom b.topLeft = reached.deltaFrom press)
        ∧ ((∀ p ∈ way, (b.movedBy (p.deltaFrom press)).LiesOn c.canvas c.source.aspect) →
            (∀ last : Point Exact, last.isFinite = true →
              (pressed.moveAll (way ++ [last])).crop = (pressed.move last).crop)
            ∧ (pressed.moveAll (way ++ [press])).crop = some b) := by
  intro c pressed carried reached q hmode
  obtain ⟨a, h, hc⟩ := inBounds_reached hvisible tuning hevents
  obtain ⟨px, py, rfl⟩ := Point.isFinite_iff.mp hpress
  obtain ⟨x, y, w, k, hcrop, hpressed⟩ := carries_down hc hmode
  obtain ⟨x', y', qx', qy', hreached, hcarried⟩ := hpressed.moveAll way hway
  have hlater (last : Point Exact) : pressed.moveAll (way ++ [last]) = carried.move last :=
    moveAll_append pressed way [last]
  have hback := hpressed.move_here
  refine ⟨_, _, hcrop, hback, hcarried.crop, rfl, rfl, ?_, ?_⟩
  · simp only [hlater]
    refine (hcarried.movesAlike_iff hpressed).trans ?_
    have hcanvas : c.canvas = Size.ofHeight a h := hc.canvas
    have hend : reached = ⟨rational qx', rational qy'⟩ := hreached
    rw [hcanvas, hend]
    simp only [Size.ofHeight, Box.topLeft, Point.deltaFrom, rational_sub, Prod.mk.injEq,
      Exact.rational.injEq]
  · intro hfree
    have hplaces : ∀ p ∈ way, ∃ rx ry : ℚ, p = ⟨rational rx, rational ry⟩
        ∧ (0 ≤ x + (rx - px) ∧ x + (rx - px) ≤ h * a - w)
        ∧ (0 ≤ y + (ry - py) ∧ y + (ry - py) ≤ h - k) := by
      intro p hp
      obtain ⟨rx, ry, rfl⟩ := Point.isFinite_iff.mp (hway p hp)
      exact ⟨rx, ry, rfl, free_of_liesOn hc.canvas (hfree _ hp)⟩
    obtain ⟨qx, qy, -, halong⟩ := hpressed.moveAll_of_free way hplaces
    -- Moved as far as the pointer, the box is as far from it as it was at the press.
    have halike : carried.MovesAlike pressed := by
      refine (halong.movesAlike_iff hpressed).mpr (.inr ⟨?_, ?_⟩)
      · linarith
      · linarith
    constructor
    · intro last hlast
      rw [hlater]
      exact halike last hlast
    · rw [hlater, halike _ rfl, hback]

/-- A box is drawn and pressed in its middle.  Carried to the left edge and beyond and back to
the press it lags behind; carried within the canvas it comes back. -/
theorem carried_box_follows_pointer_iff_stopped :
    let f : Frame := ⟨1920, 1080⟩
    let container : Size Exact := ⟨640, 480⟩
    let events : List (PointerEvent Exact × Exact) :=
      [(⟨.down, 100, 100⟩, 1), (⟨.move, 260, 190⟩, 1), (⟨.up, 260, 190⟩, 1)]
    let press : Point Exact := ⟨180, 145⟩
    let pressed := ((fresh ⟨30, 8⟩ f (container.fit f)).handleAll events).down press
    let stopped := [⟨0, 145⟩, press]
    let free := [⟨400, 50⟩, ⟨90, 150⟩]
    (container.fit f).isVisible = true ∧ pressed.mode = .moving press
      ∧ (pressed.moveAll stopped).crop = some ⟨180, 100, 160, 90⟩
      ∧ ¬(∀ last : Point Exact, last.isFinite = true →
        (pressed.moveAll (stopped ++ [last])).crop = (pressed.move last).crop)
      ∧ (∀ last : Point Exact, last.isFinite = true →
        (pressed.moveAll (free ++ [last])).crop = (pressed.move last).crop)
      ∧ (pressed.moveAll (free ++ [press])).crop = some ⟨100, 100, 160, 90⟩ := by
  intro f container events press pressed stopped free
  have hvisible : (container.fit f).isVisible = true := by decide +kernel
  have hevents : ∀ e ∈ events, e.1.isFinite = true := by decide
  have hmode : pressed.mode = .moving press := by decide +kernel
  have hcrop : ((fresh ⟨30, 8⟩ f (container.fit f)).handleAll events).crop
      = some ⟨100, 100, 160, 90⟩ := by decide +kernel
  have hstopped : (pressed.moveAll stopped).crop = some ⟨180, 100, 160, 90⟩ := by
    decide +kernel
  obtain ⟨b, b', hb, -, hb', -, -, hiff, -⟩ := carried_box_follows_pointer_iff ⟨30, 8⟩ f
    container events press stopped hvisible hevents rfl (by decide) press hmode
  obtain ⟨b₀, -, hb₀, -, -, -, -, -, hfree⟩ := carried_box_follows_pointer_iff ⟨30, 8⟩ f
    container events press free hvisible hevents rfl (by decide) press hmode
  cases Option.some.inj (hb.symm.trans hcrop)
  cases Option.some.inj (hb₀.symm.trans hcrop)
  cases Option.some.inj (hb'.symm.trans hstopped)
  have hlags : ¬(∀ last : Point Exact, last.isFinite = true →
      (pressed.moveAll (stopped ++ [last])).crop = (pressed.move last).crop) := by
    rw [hiff]
    decide +kernel
  obtain ⟨halike, hback⟩ := hfree (by decide +kernel)
  exact ⟨hvisible, hmode, hstopped, hlags, halike, hback⟩

/-- **A box that was stopped lags behind**: the pointer takes it 180 to the left, where it is
stopped after 100, and comes back to the press. -/
theorem carried_box_lags_behind :
    let drawn : Cropper Exact := (fresh ⟨30, 8⟩ ⟨640, 360⟩ ⟨640, 360⟩).handleAll
      [(⟨.down, 100, 100⟩, 1), (⟨.move, 260, 190⟩, 1), (⟨.up, 260, 190⟩, 1)]
    let pressed := drawn.down ⟨180, 145⟩
    drawn.crop = some ⟨100, 100, 160, 90⟩ ∧ pressed.mode = .moving ⟨180, 145⟩
      ∧ (pressed.move ⟨180, 145⟩).crop = some ⟨100, 100, 160, 90⟩
      ∧ (pressed.moveAll [⟨0, 145⟩]).crop = some ⟨0, 100, 160, 90⟩
      ∧ (pressed.moveAll [⟨0, 145⟩, ⟨180, 145⟩]).crop = some ⟨180, 100, 160, 90⟩ := by
  decide +kernel

end Cropper
end GifEdit
