/-
  GifEdit.Proofs.Geometry.Letterbox
  ─────────────────────────────────
  **THE REGION UNDER A BOX.**

  A box on the canvas may lie anywhere, and its numbers may be undefined or
  infinite; the region under it always lies inside the frame and has even sides.
  Position and sides are clamped against what is left of the frame, and rounding
  down to an even side only shrinks it.

  The position is clamped first, so what it leaves of the frame is never negative, and
  everything that follows is at most a side of the frame: `region_stays_in_words`.
-/
import GifEdit.Geometry.Letterbox
import GifEdit.Proofs.Scalar.Words
import GifEdit.Scalar.Exact

namespace GifEdit

/-! ## §1. Even sides. -/

theorem floorEven_le (n : Nat) : floorEven n ≤ n := Nat.sub_le n (n % 2)

theorem floorEven_even (n : Nat) : floorEven n % 2 = 0 := by
  unfold floorEven
  omega

/-- No even side gets below two. -/
theorem two_le_floorEven {n : Nat} (h : 2 ≤ n) : 2 ≤ floorEven n := by
  unfold floorEven
  omega

/-! ## §2. Regions. -/

/-- Inside a frame that is smaller than the words, the check sees the edges as they are. -/
theorem Region.fitsWithin_iff {r : Region} {f : Frame} (hwidth : f.width < Scalar.wordMax)
    (hheight : f.height < Scalar.wordMax) :
    r.fitsWithin f = true ↔ r.x + r.width ≤ f.width ∧ r.y + r.height ≤ f.height := by
  unfold fitsWithin right bottom
  rw [Bool.and_eq_true, decide_eq_true_eq, decide_eq_true_eq]
  -- An edge that was cut off would be the largest word, which is beyond the frame.
  show min (r.x + r.width) Scalar.wordMax ≤ f.width ∧ min (r.y + r.height) Scalar.wordMax ≤ f.height
    ↔ _
  omega

variable {α : Type} [Scalar α]

theorem roundClamped_le (value : α) (limit : Nat) : roundClamped value limit ≤ limit := by
  unfold roundClamped
  split
  · exact Nat.zero_le limit
  · exact Nat.min_le_right _ limit

namespace Box

/-- The far edges stay inside the frame, without any saturation. -/
theorem toSource_inside (b : Box α) (display : Size α) (source : Frame) :
    (b.toSource display source).x + (b.toSource display source).width ≤ source.width
      ∧ (b.toSource display source).y + (b.toSource display source).height ≤ source.height := by
  unfold toSource
  dsimp only
  constructor
  · have hx := roundClamped_le (b.x * axisScale source.width display.width) source.width
    have hwidth := roundClamped_le (b.width * axisScale source.width display.width)
      (source.width - roundClamped (b.x * axisScale source.width display.width) source.width)
    have heven := floorEven_le (roundClamped (b.width * axisScale source.width display.width)
      (source.width - roundClamped (b.x * axisScale source.width display.width) source.width))
    omega
  · have hy := roundClamped_le (b.y * axisScale source.height display.height) source.height
    have hheight := roundClamped_le (b.height * axisScale source.height display.height)
      (source.height - roundClamped (b.y * axisScale source.height display.height) source.height)
    have heven := floorEven_le (roundClamped (b.height * axisScale source.height display.height)
      (source.height - roundClamped (b.y * axisScale source.height display.height) source.height))
    omega

theorem toSource_fitsWithin (b : Box α) (display : Size α) (source : Frame) :
    (b.toSource display source).fitsWithin source = true := by
  obtain ⟨hright, hbottom⟩ := toSource_inside b display source
  -- The check sees edges that are cut off at the largest word, which is no loss here.
  unfold Region.fitsWithin Region.right Region.bottom
  rw [Bool.and_eq_true, decide_eq_true_eq, decide_eq_true_eq]
  exact ⟨Nat.le_trans (Nat.min_le_left _ _) hright, Nat.le_trans (Nat.min_le_left _ _) hbottom⟩

theorem toSource_isEven (b : Box α) (display : Size α) (source : Frame) :
    (b.toSource display source).isEven = true := by
  unfold Region.isEven toSource
  rw [Bool.and_eq_true, decide_eq_true_eq, decide_eq_true_eq]
  exact ⟨floorEven_even _, floorEven_even _⟩

/-! ## §3. Words. -/

/-- The region under a box, if no step on the way to it leaves the words. -/
def toSourceInWords? (b : Box α) (display : Size α) (source : Frame) : Option Region := do
  let sx := axisScale source.width display.width
  let sy := axisScale source.height display.height
  let x ← Scalar.word? (roundClamped (b.x * sx) source.width)
  let y ← Scalar.word? (roundClamped (b.y * sy) source.height)
  let right ← Scalar.wordSub? source.width x
  let below ← Scalar.wordSub? source.height y
  let width ← Scalar.word? (roundClamped (b.width * sx) right)
  let height ← Scalar.word? (roundClamped (b.height * sy) below)
  return ⟨x, y, floorEven width, floorEven height⟩

/-- What is clamped against a word is one. -/
theorem word?_roundClamped (value : α) {limit : Nat} (h : limit ≤ Scalar.wordMax) :
    Scalar.word? (roundClamped value limit) = some (roundClamped value limit) :=
  Scalar.word?_of_le (Nat.le_trans (roundClamped_le value limit) h)

theorem toSourceInWords?_eq (b : Box α) (display : Size α) (source : Frame)
    (hwidth : source.width ≤ Scalar.wordMax) (hheight : source.height ≤ Scalar.wordMax) :
    b.toSourceInWords? display source = some (b.toSource display source) := by
  -- The rest of a side is no longer than the side, so it can be clamped against again.
  have hrest {a n : Nat} (h : a ≤ Scalar.wordMax) : a - n ≤ Scalar.wordMax :=
    Nat.le_trans (Nat.sub_le a n) h
  unfold toSourceInWords? toSource
  simp only [word?_roundClamped _ hwidth, word?_roundClamped _ hheight,
    Scalar.wordSub?_of_le (roundClamped_le _ _), word?_roundClamped _ (hrest hwidth),
    word?_roundClamped _ (hrest hheight), Option.bind_eq_bind, Option.bind_some]
  rfl

/-- **THE REGION UNDER A BOX STAYS IN THE WORDS**, whatever numbers the box and the canvas
are made of: in a frame whose sides are words it is computed without a step out of them, no
edge of it lies outside the frame, and its sides are even. -/
theorem region_stays_in_words (b : Box α) (display : Size α) (source : Frame)
    (hwidth : source.width ≤ Scalar.wordMax) (hheight : source.height ≤ Scalar.wordMax) :
    ∃ r, b.toSourceInWords? display source = some r ∧ r = b.toSource display source
      ∧ r.x + r.width ≤ source.width ∧ r.y + r.height ≤ source.height
      ∧ r.width % 2 = 0 ∧ r.height % 2 = 0 := by
  refine ⟨_, toSourceInWords?_eq b display source hwidth hheight, rfl, ?_, ?_, ?_, ?_⟩
  · exact (toSource_inside b display source).1
  · exact (toSource_inside b display source).2
  · exact floorEven_even _
  · exact floorEven_even _

/-- A box that is endless to the right and undefined below, over the corner of the largest
frame. -/
theorem region_stays_in_words_corner :
    let b : Box Exact := ⟨-3, 359.99, 1e30, .undefined⟩
    let source : Frame := ⟨4294967295, 1081⟩
    b.toSource ⟨640, 360⟩ source = ⟨0, 1081, 4294967294, 0⟩
      ∧ b.toSourceInWords? ⟨640, 360⟩ source = some ⟨0, 1081, 4294967294, 0⟩
      ∧ 0 + 4294967294 ≤ source.width ∧ 1081 + 0 ≤ source.height := by
  intro b source
  have hregion : b.toSource ⟨640, 360⟩ source = ⟨0, 1081, 4294967294, 0⟩ := by decide +kernel
  obtain ⟨r, hwords, hr, hright, hbottom, -, -⟩ :=
    region_stays_in_words b ⟨640, 360⟩ source (by decide) (by decide)
  rw [hregion] at hr
  subst hr
  exact ⟨hregion, hwords, hright, hbottom⟩

end Box
end GifEdit
