/-
  GifEdit.Proofs.Editor.Resizing
  ──────────────────────────────
  **A CROP STAYS OVER ITS PART OF THE VIDEO WHILE THE CANVAS IS RESIZED.**

  A change between two canvases that can be seen scales the crop, and the region under it
  is the same.  Two things are not scaled, and through them a region may change:

      an empty canvas   does not scale the crop, and neither does the canvas after it, so
                        the crop keeps its canvas units over the stretch of empty ones
      a drawn box       remembers the crop from before the gesture, in units of the canvas
                        of that time

  The first is told by the JUMPS of a sequence of canvases: the canvases right before and
  right after each stretch of empty ones.  Over a jump from `c` to `c'` the crop is
  stretched over the video by `c / c'`, and all jumps together say which region is left.
  The second matters where a drawn box is discarded, and nowhere else: any gesture that
  goes on, commits or is dropped leaves the same region on either canvas.

  Main results: `resizes_keep_region`, for every sequence of containers, and
  `resize_before_release`, for every state of a gesture.
-/
import GifEdit.Proofs.Editor.Cropper
import GifEdit.Proofs.Editor.Gestures
import GifEdit.Proofs.Geometry.Rescaling

namespace GifEdit

open Exact

/-! ## §1. One resize. -/

namespace Cropper

section Canvas

variable {α : Type} [Scalar α] {c : Cropper α}

theorem sourceRegion_eq (c : Cropper α) :
    c.sourceRegion = c.crop.bind (·.region? c.canvas c.source) := by
  unfold sourceRegion
  cases c.crop <;> rfl

/-- Without two canvases to compare the crop keeps its canvas units. -/
theorem setCanvas_crop_of_isEmpty {size : Size α}
    (h : c.canvas.isEmpty = true ∨ size.isEmpty = true) : (c.setCanvas size).crop = c.crop := by
  unfold setCanvas
  cases c.crop with
  | none => rfl
  | some b => rcases h with h | h <;> simp [h]

/-- The cropper after changes of its canvas in a row. -/
def setCanvases (c : Cropper α) (sizes : List (Size α)) : Cropper α := sizes.foldl setCanvas c

/-- A crop stretched over the video. -/
def stretched (c : Cropper α) (factors : Size α) : Cropper α :=
  { c with crop := c.crop.map (·.scaled factors.width factors.height) }

theorem sourceRegion_stretched (c : Cropper α) (factors : Size α) :
    (c.stretched factors).sourceRegion = c.crop.bind fun b =>
      (b.scaled factors.width factors.height).region? c.canvas c.source := by
  rw [sourceRegion_eq]
  exact Option.bind_map

end Canvas

variable {c : Cropper Exact} {size seen : Size Exact} {p q : ℚ}

theorem stretched_one (c : Cropper Exact) : c.stretched ⟨rational 1, rational 1⟩ = c := by
  unfold stretched
  simp only [Box.scaled_one, Option.map_id']

/-- **The crop grows with a canvas that can be seen**, also where it is stretched. -/
theorem sourceRegion_setCanvas_stretched (hbefore : c.canvas.isVisible = true)
    (hafter : size.isVisible = true) (hp : 0 < p) (hq : 0 < q) :
    ((c.setCanvas size).stretched ⟨rational p, rational q⟩).sourceRegion
      = (c.stretched ⟨rational p, rational q⟩).sourceRegion := by
  rw [sourceRegion_stretched, sourceRegion_stretched, setCanvas_crop
    (Size.isEmpty_of_isVisible hbefore) (Size.isEmpty_of_isVisible hafter), Option.bind_map]
  obtain ⟨w, h, hw, hh, hcanvas⟩ := Size.isVisible_iff.mp hbefore
  obtain ⟨w', h', hw', hh', rfl⟩ := Size.isVisible_iff.mp hafter
  have hx : w' / w * p / w' = p / w := by field_simp
  have hy : h' / h * q / h' = q / h := by field_simp
  refine congrArg c.crop.bind (funext fun b => ?_)
  show ((b.scaled _ _).scaled _ _).region? ⟨rational w', rational h'⟩ c.source = _
  rw [hcanvas, rational_div hw.ne', rational_div hh.ne', Box.scaled_scaled (div_pos hw' hw)
    (div_pos hh' hh)]
  exact Box.region?_scaled (mul_pos (div_pos hw' hw) hp) (mul_pos (div_pos hh' hh) hq) hp hq hw'
    hh' hw hh hx hy b c.source

/-- **Between two canvases that can be seen** the region stays. -/
theorem sourceRegion_setCanvas (hbefore : c.canvas.isVisible = true)
    (hafter : size.isVisible = true) : (c.setCanvas size).sourceRegion = c.sourceRegion := by
  have hstays := sourceRegion_setCanvas_stretched hbefore hafter one_pos one_pos
  rw [stretched_one, stretched_one] at hstays
  exact hstays

/-- A crop in units of one canvas that is shown on another is stretched by their quotient. -/
theorem sourceRegion_jump (hseen : seen.isVisible = true) (hafter : size.isVisible = true)
    (hp : 0 < p) (hq : 0 < q) (c : Cropper Exact) :
    ({ c with canvas := size }.stretched ⟨rational p, rational q⟩).sourceRegion
      = ({ c with canvas := seen }.stretched ⟨seen.width / size.width * rational p,
          seen.height / size.height * rational q⟩).sourceRegion := by
  rw [sourceRegion_stretched, sourceRegion_stretched]
  obtain ⟨w, h, hw, hh, rfl⟩ := Size.isVisible_iff.mp hseen
  obtain ⟨w', h', hw', hh', rfl⟩ := Size.isVisible_iff.mp hafter
  have hx : p / w' = w / w' * p / w := by field_simp
  have hy : q / h' = h / h' * q / h := by field_simp
  refine congrArg c.crop.bind (funext fun b => ?_)
  rw [rational_div hw'.ne', rational_div hh'.ne', rational_mul, rational_mul]
  exact Box.region?_scaled hp hq (mul_pos (div_pos hw hw') hp) (mul_pos (div_pos hh hh') hq) hw'
    hh' hw hh hx hy b c.source

/-! ## §2. A resize in the middle of a gesture. -/

section Release

variable {α : Type} [Scalar α]

/-- What a release commits. -/
theorem release_snd (c : Cropper α) (playhead : α) : (c.release playhead).2
    = if c.mode.isIdle then none else c.sourceRegion.map (⟨·, playhead⟩) := by
  cases hidle : c.mode.isIdle with
  | true => rw [release_of_isIdle hidle, if_pos rfl]
  | false =>
      rw [release_of_not_isIdle hidle, if_neg Bool.false_ne_true]
      cases c.sourceRegion <;> rfl

/-- What a release leaves: the region under the crop, or else under the box that was
remembered. -/
theorem sourceRegion_release (c : Cropper α) (playhead : α) : (c.release playhead).1.sourceRegion
    = c.sourceRegion.or (c.mode.remembered.bind (·.region? c.canvas c.source)) := by
  cases hidle : c.mode.isIdle with
  | true =>
      rw [release_of_isIdle hidle, CropMode.eq_idle hidle]
      exact (Option.or_none).symm
  | false =>
      rw [release_of_not_isIdle hidle]
      cases hregion : c.sourceRegion with
      | some r => exact hregion
      | none =>
          show c.undone.sourceRegion = _
          rw [sourceRegion_eq] at hregion ⊢
          unfold undone
          cases hm : c.mode with
          | drawing anchor previous => rfl
          | idle => exact hregion
          | resizing handle anchor => exact hregion
          | moving last => exact hregion

end Release

/-- **A RESIZE BEFORE THE RELEASE CHANGES NOTHING BUT A BOX THAT COMES BACK.**  In any state
of the canvas a gesture that ends commits the same, if anything, whether the canvas was
resized before or not.  And it leaves the same region, exactly if the drawn box is not
discarded, or else the remembered box covers the same region on both canvases. -/
theorem resize_before_release (c : Cropper Exact) (size : Size Exact) (playhead : Exact)
    (hbefore : c.canvas.isVisible = true) (hafter : size.isVisible = true) :
    let resized := (c.setCanvas size).release playhead
    let kept := c.release playhead
    resized.2 = kept.2
      ∧ (resized.1.sourceRegion = kept.1.sourceRegion ↔
          (c.sourceRegion = none → ∀ b ∈ c.mode.remembered,
            b.region? size c.source = b.region? c.canvas c.source)) := by
  intro resized kept
  have hregion := sourceRegion_setCanvas hbefore hafter
  constructor
  · have hresized : resized.2 = _ := release_snd (c.setCanvas size) playhead
    rw [hresized, hregion]
    exact (release_snd c playhead).symm
  · have hresized : resized.1.sourceRegion = _ := sourceRegion_release (c.setCanvas size) playhead
    have hkept : kept.1.sourceRegion = _ := sourceRegion_release c playhead
    rw [hresized, hkept, hregion]
    show c.sourceRegion.or (c.mode.remembered.bind (·.region? size c.source)) = _ ↔ _
    -- If the box has a region, it is committed; only otherwise the remembered one counts.
    cases c.sourceRegion with
    | some r => exact ⟨fun _ hnone => (nomatch hnone), fun _ => rfl⟩
    | none =>
        cases c.mode.remembered with
        | none => exact ⟨fun _ _ b hb => (nomatch hb), fun _ => rfl⟩
        | some b =>
            refine ⟨?_, fun h => h rfl b rfl⟩
            rintro h _ b' ⟨rfl⟩
            exact h

/-- A corner is dragged while the canvas doubles. -/
theorem resize_before_release_dragged :
    let c := (fresh ⟨30, 8⟩ ⟨640, 360⟩ ⟨640, 360⟩ : Cropper Exact).handleAll
      [(⟨.down, 100, 100⟩, 0), (⟨.move, 260, 190⟩, 0), (⟨.up, 260, 190⟩, 2),
        (⟨.down, 260, 190⟩, 2), (⟨.move, 420, 280⟩, 3)]
    let resized := (c.setCanvas ⟨1280, 720⟩).release 5
    c.mode = .resizing .bottomRight ⟨100, 100⟩ ∧ c.canvas.isVisible = true
      ∧ resized.2 = some ⟨⟨100, 100, 320, 180⟩, 5⟩ ∧ resized.2 = (c.release 5).2
      ∧ resized.1.sourceRegion = (c.release 5).1.sourceRegion := by
  intro c resized
  have hmode : c.mode = .resizing .bottomRight ⟨100, 100⟩ := by decide +kernel
  have hcanvas : c.canvas.isVisible = true := by decide +kernel
  obtain ⟨hcommit, hregion⟩ := resize_before_release c ⟨1280, 720⟩ 5 hcanvas rfl
  refine ⟨hmode, hcanvas, by decide +kernel, hcommit, hregion.mpr ?_⟩
  rw [hmode]
  exact fun _ b hb => nomatch hb

/-- **A box that comes back after a resize is not where it was**: a crop is committed, a
press beside it begins another box, the canvas doubles, and the release discards the box. -/
theorem discarded_box_comes_back_elsewhere :
    let c := (fresh ⟨30, 8⟩ ⟨640, 360⟩ ⟨640, 360⟩ : Cropper Exact).handleAll
      [(⟨.down, 100, 100⟩, 0), (⟨.move, 260, 190⟩, 0), (⟨.up, 260, 190⟩, 2),
        (⟨.down, 500, 300⟩, 2)]
    let resized := (c.setCanvas ⟨1280, 720⟩).release 5
    c.canvas.isVisible = true ∧ resized.2 = none
      ∧ (c.release 5).1.sourceRegion = some ⟨100, 100, 160, 90⟩
      ∧ resized.1.sourceRegion = some ⟨50, 50, 80, 44⟩ := by
  decide +kernel

end Cropper

/-! ## §3. Canvases in a row. -/

namespace Size

section Jumps

variable {α : Type} [Scalar α]

/-- The canvases right before and right after each stretch of empty ones; `seen` is the last
canvas that was not empty, and `hidden` says whether empty ones followed it. -/
def jumps (seen : Size α) (hidden : Bool) : List (Size α) → List (Size α × Size α)
  | [] => []
  | size :: sizes =>
      if size.isEmpty then jumps seen true sizes
      else if hidden then (seen, size) :: jumps size false sizes
      else jumps size false sizes

/-- The factors by which a crop is stretched over the video by keeping its canvas units
over all jumps. -/
def stretch : List (Size α × Size α) → Size α
  | [] => ⟨1, 1⟩
  | (before, after) :: rest =>
      ⟨before.width / after.width * (stretch rest).width,
        before.height / after.height * (stretch rest).height⟩

/-- Without an empty canvas there is no jump. -/
theorem jumps_of_not_isEmpty {seen : Size α} {sizes : List (Size α)}
    (h : ∀ size ∈ sizes, size.isEmpty = false) : jumps seen false sizes = [] := by
  induction sizes generalizing seen with
  | nil => rfl
  | cons size sizes ih =>
      unfold jumps
      rw [h size List.mem_cons_self, if_neg Bool.false_ne_true, if_neg Bool.false_ne_true]
      exact ih fun size' hsize' => h size' (List.mem_cons_of_mem size hsize')

end Jumps

/-- A canvas that shows nothing, or all of it. -/
def EmptyOrVisible (s : Size Exact) : Prop := s.isEmpty = true ∨ s.isVisible = true

variable {sizes : List (Size Exact)}

/-- The factors are positive numbers, and a canvas that comes back as it was does not
stretch the crop. -/
theorem stretch_jumps_eq (hsizes : ∀ size ∈ sizes, size.EmptyOrVisible) :
    ∀ {seen : Size Exact} (hidden : Bool), seen.isVisible = true →
      ∃ p q : ℚ, 0 < p ∧ 0 < q
        ∧ stretch (jumps seen hidden sizes) = ⟨rational p, rational q⟩
        ∧ ((∀ j ∈ jumps seen hidden sizes, j.1 = j.2) → p = 1 ∧ q = 1) := by
  induction sizes with
  | nil =>
      intro seen hidden _
      exact ⟨1, 1, one_pos, one_pos, by simp [jumps, stretch], fun _ => ⟨rfl, rfl⟩⟩
  | cons size sizes ih =>
      intro seen hidden hseen
      have ih := @ih fun size' hsize' => hsizes size' (List.mem_cons_of_mem size hsize')
      unfold jumps
      rcases hsizes size List.mem_cons_self with hempty | hvisible
      · rw [if_pos hempty]
        exact ih true hseen
      · rw [if_neg (by rw [isEmpty_of_isVisible hvisible]; exact Bool.false_ne_true)]
        obtain ⟨p, q, hp, hq, hrest, hsame⟩ := ih false hvisible
        cases hidden with
        | false => exact ⟨p, q, hp, hq, hrest, hsame⟩
        | true =>
            -- A jump from the canvas seen last to this one.
            obtain ⟨w, h, hw, hh, rfl⟩ := isVisible_iff.mp hseen
            obtain ⟨w', h', hw', hh', rfl⟩ := isVisible_iff.mp hvisible
            refine ⟨w / w' * p, h / h' * q, mul_pos (div_pos hw hw') hp,
              mul_pos (div_pos hh hh') hq, ?_, fun hall => ?_⟩
            · rw [if_pos rfl]
              unfold stretch
              rw [hrest, rational_div hw'.ne', rational_div hh'.ne', rational_mul, rational_mul]
            · obtain ⟨hfirst, hrest⟩ := List.forall_mem_cons.mp hall
              obtain ⟨hwidth, hheight⟩ := Size.mk.inj hfirst
              obtain ⟨rfl, rfl⟩ := hsame hrest
              rw [Exact.rational.inj hwidth, Exact.rational.inj hheight, div_self hw'.ne',
                div_self hh'.ne']
              exact ⟨one_mul 1, one_mul 1⟩

end Size

namespace Cropper

variable {sizes : List (Size Exact)}

/-- **Canvases in a row.**  The crop is held in units of the canvas `seen`, which is the
canvas of the cropper unless that is hidden; in the end the canvas can be seen again. -/
theorem sourceRegion_setCanvases (hsizes : ∀ size ∈ sizes, size.EmptyOrVisible) :
    ∀ (c : Cropper Exact) {seen : Size Exact} (hidden : Bool), seen.isVisible = true →
      (hidden = true → c.canvas.isEmpty = true) → (hidden = false → c.canvas = seen) →
      (c.setCanvases sizes).canvas.isEmpty = false →
      (c.setCanvases sizes).sourceRegion
        = ({ c with canvas := seen }.stretched
            (Size.stretch (Size.jumps seen hidden sizes))).sourceRegion := by
  induction sizes with
  | nil =>
      intro c seen hidden hseen hhidden hshown hlast
      cases hidden with
      | true => exact absurd ((hhidden rfl).symm.trans hlast) (by decide)
      | false =>
          obtain rfl : c.canvas = seen := hshown rfl
          show c.sourceRegion = (c.stretched ⟨(1 : Exact), (1 : Exact)⟩).sourceRegion
          rw [literal_eq, Nat.cast_one, stretched_one]
  | cons size sizes ih =>
      intro c seen hidden hseen hhidden hshown hlast
      have hrest : ∀ size' ∈ sizes, size'.EmptyOrVisible := fun size' hsize' =>
        hsizes size' (List.mem_cons_of_mem size hsize')
      have ih := @ih hrest
      show ((c.setCanvas size).setCanvases sizes).sourceRegion = _
      unfold Size.jumps
      rcases hsizes size List.mem_cons_self with hempty | hvisible
      · -- The crop keeps its units, and nothing tells of the empty canvas.
        rw [ih _ true hseen (fun _ => hempty) (fun h => nomatch h) hlast, if_pos hempty,
          sourceRegion_stretched, sourceRegion_stretched, setCanvas_crop_of_isEmpty (.inr hempty)]
        rfl
      · have hopen := Size.isEmpty_of_isVisible hvisible
        obtain ⟨p, q, hp, hq, hstretch, -⟩ := Size.stretch_jumps_eq hrest false hvisible
        rw [ih _ false hvisible (fun h => nomatch h) (fun _ => rfl) hlast, hstretch, hopen,
          if_neg Bool.false_ne_true]
        cases hidden with
        | false =>
            -- The crop grows with the canvas, and what follows stretches it as before.
            obtain rfl : c.canvas = seen := hshown rfl
            rw [if_neg Bool.false_ne_true, hstretch]
            exact sourceRegion_setCanvas_stretched hseen hvisible hp hq
        | true =>
            -- The crop keeps its units, which are larger or smaller now.
            have hkept : { c.setCanvas size with canvas := size } = { c with canvas := size } := by
              show { c with crop := (c.setCanvas size).crop, canvas := size } = _
              rw [setCanvas_crop_of_isEmpty (.inl (hhidden rfl))]
            rw [if_pos rfl, hkept, sourceRegion_jump hseen hvisible hp hq]
            unfold Size.stretch
            rw [hstretch]

end Cropper

/-! ## §4. Resizes of a session. -/

namespace Size

variable {f : Frame} {container : Size Exact}

/-- A container with room holds a canvas that can be seen. -/
theorem fit_isVisible (hf : f.HasPixels) (hroom : container.hasRoom = true) :
    (container.fit f).isVisible = true := by
  obtain ⟨h, hh, hfit⟩ := fit_eq hf hroom
  exact isVisible_iff.mpr ⟨h * f.proportion, h, mul_pos hh (Frame.proportion_pos hf), hh, hfit⟩

theorem fit_emptyOrVisible (hf : f.HasPixels)
    (h : container.isEmpty = true ∨ container.hasRoom = true) :
    (container.fit f).EmptyOrVisible := by
  rcases h with hempty | hroom
  · refine .inl ?_
    unfold fit
    rw [if_pos hempty]
    rfl
  · exact .inr (fit_isVisible hf hroom)

end Size

namespace Cropper

variable {α : Type} [Scalar α]

theorem setCanvases_canvas (c : Cropper α) (sizes : List (Size α)) :
    (c.setCanvases sizes).canvas = sizes.getLast?.getD c.canvas := by
  induction sizes generalizing c with
  | nil => rfl
  | cons size sizes ih =>
      show ((c.setCanvas size).setCanvases sizes).canvas = _
      rw [ih, List.getLast?_cons]
      rfl

end Cropper

namespace Session

variable {α : Type} [Scalar α]

/-- The session after its window was resized again and again. -/
def resizeAll (s : Session α) (containers : List (Size α)) : Session α :=
  s.run (containers.map .resize)

theorem resizeAll_crop (s : Session α) (containers : List (Size α)) :
    (s.resizeAll containers).crop
      = s.crop.setCanvases (containers.map (·.fit s.source.frame)) := by
  induction containers generalizing s with
  | nil => rfl
  | cons container containers ih => exact ih (s.resizeCanvas container)

/-- **RESIZES KEEP THE REGION UNDER THE CROP, BUT FOR JUMPS BETWEEN CANVASES.**  For any
containers of which the last has room, the region is the one under the crop stretched over
all jumps; so it is the same if the canvas comes back as it was after each stretch of empty
ones, and in particular if no container is empty. -/
theorem resizes_keep_region (s : Session Exact) (containers : List (Size Exact))
    (hsource : s.source.check = .ok ()) (hcanvas : s.crop.canvas.isVisible = true)
    (hcontainers : ∀ k ∈ containers, k.isEmpty = true ∨ k.hasRoom = true)
    (hlast : ∀ k ∈ containers.getLast?, k.hasRoom = true) :
    let after := (s.resizeAll containers).crop
    let jumps := Size.jumps s.crop.canvas false (containers.map (·.fit s.source.frame))
    after.sourceRegion = (s.crop.stretched (Size.stretch jumps)).sourceRegion
      ∧ ((∀ j ∈ jumps, j.1 = j.2) → after.sourceRegion = s.crop.sourceRegion)
      ∧ ((∀ k ∈ containers, k.isEmpty = false) → after.sourceRegion = s.crop.sourceRegion) := by
  intro after jumps
  have hpixels := Clip.frame_hasPixels hsource
  have hsizes : ∀ size ∈ containers.map (·.fit s.source.frame), size.EmptyOrVisible := by
    intro size hsize
    obtain ⟨k, hk, rfl⟩ := List.mem_map.mp hsize
    exact Size.fit_emptyOrVisible hpixels (hcontainers k hk)
  have hopen : (s.crop.setCanvases (containers.map (·.fit s.source.frame))).canvas.isEmpty
      = false := by
    rw [Cropper.setCanvases_canvas, List.getLast?_map]
    cases hk : containers.getLast? with
    | none => exact Size.isEmpty_of_isVisible hcanvas
    | some k => exact Size.isEmpty_of_isVisible (Size.fit_isVisible hpixels (hlast k hk))
  have hregion : after.sourceRegion = (s.crop.stretched (Size.stretch jumps)).sourceRegion := by
    show (s.resizeAll containers).crop.sourceRegion = _
    rw [resizeAll_crop]
    exact Cropper.sourceRegion_setCanvases hsizes s.crop false hcanvas (fun h => nomatch h)
      (fun _ => rfl) hopen
  have hsame : (∀ j ∈ jumps, j.1 = j.2) → after.sourceRegion = s.crop.sourceRegion := by
    intro hjumps
    obtain ⟨p, q, -, -, hstretch, hone⟩ := Size.stretch_jumps_eq hsizes false hcanvas
    obtain ⟨rfl, rfl⟩ := hone hjumps
    rw [hregion, hstretch, Cropper.stretched_one]
  refine ⟨hregion, hsame, fun hall => hsame fun j hj => ?_⟩
  -- A container that is not empty has room, so no canvas is empty and nothing jumps.
  have hnone : jumps = [] := by
    refine Size.jumps_of_not_isEmpty fun size hsize => ?_
    obtain ⟨k, hk, rfl⟩ := List.mem_map.mp hsize
    have hroom : k.hasRoom = true := by
      rcases hcontainers k hk with hempty | hroom
      · exact absurd (hempty.symm.trans (hall k hk)) (by decide)
      · exact hroom
    exact Size.isEmpty_of_isVisible (Size.fit_isVisible hpixels hroom)
  rw [hnone] at hj
  exact absurd hj List.not_mem_nil

/-- The window grows, is hidden twice, comes back as it was, and shrinks. -/
theorem resizes_keep_region_hidden :
    let source : Clip Exact := ⟨"clip.mp4", 10, 640, 360⟩
    let config : Config Exact := {}
    let container : Size Exact := ⟨640, 360⟩
    let fresh : Session Exact := {
      source := source
      crop := Cropper.fresh config.interaction.cropTuning source.frame (container.fit source.frame)
      timeline := Timeline.fresh config.interaction.timelineTuning 10 ⟨0, 1000⟩
      exportSettings := .standard
      background := .standard }
    let s := fresh.run [.step (.canvas .down 100 100), .step (.canvas .move 260 190),
      .step (.canvas .up 260 190)]
    let containers : List (Size Exact) :=
      [⟨1280, 800⟩, ⟨0, 0⟩, ⟨500, 0⟩, ⟨1280, 720⟩, ⟨320, 180⟩]
    start source config container ⟨0, 1000⟩ = .ok fresh ∧ s.crop.mode = .idle
      ∧ s.crop.sourceRegion = some ⟨100, 100, 160, 90⟩
      ∧ (s.resizeAll containers).crop.sourceRegion = s.crop.sourceRegion := by
  intro source config container fresh s containers
  refine ⟨by decide +kernel, by decide +kernel, by decide +kernel, ?_⟩
  have hcanvas : s.crop.canvas.isVisible = true := by decide +kernel
  have hcontainers : ∀ k ∈ containers, k.isEmpty = true ∨ k.hasRoom = true := by decide +kernel
  have hlast : ∀ k ∈ containers.getLast?, k.hasRoom = true := by decide +kernel
  obtain ⟨-, hsame, -⟩ := resizes_keep_region s containers rfl hcanvas hcontainers hlast
  exact hsame (by decide +kernel)

/-- **A window that comes back from nothing at half its size** shows the crop over another
region, twice as far from the corner and about four times as large. -/
theorem hidden_canvas_moves_region :
    let source : Clip Exact := ⟨"clip.mp4", 10, 640, 360⟩
    let config : Config Exact := {}
    let container : Size Exact := ⟨640, 360⟩
    let fresh : Session Exact := {
      source := source
      crop := Cropper.fresh config.interaction.cropTuning source.frame (container.fit source.frame)
      timeline := Timeline.fresh config.interaction.timelineTuning 10 ⟨0, 1000⟩
      exportSettings := .standard
      background := .standard }
    let s := fresh.run [.step (.canvas .down 100 100), .step (.canvas .move 260 190),
      .step (.canvas .up 260 190)]
    start source config container ⟨0, 1000⟩ = .ok fresh ∧ s.crop.mode = .idle
      ∧ s.crop.canvas.isEmpty = false ∧ s.crop.sourceRegion = some ⟨100, 100, 160, 90⟩
      ∧ (s.resizeAll [⟨0, 0⟩, ⟨320, 180⟩]).crop.sourceRegion = some ⟨200, 200, 320, 160⟩ := by
  decide +kernel

end Session
end GifEdit
