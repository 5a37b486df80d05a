/-
  GifEdit.Proofs.Render.Layout
  ────────────────────────────
  **WHICH LAYOUTS STAY IN THE WORDS.**

  The sides of the picture are 32-bit words, and three things may leave them: a quotient
  or a margin that is rounded to a word and cut off at the largest one, a margin that is
  doubled, and the sum of a side and its margins.  Run with checked arithmetic, a layout
  has a result exactly if none of this happens.

  What is bounded on the way:

      width of the video     at most 1200, by the export settings
      margin of a side       at most half of the side, as no padding is larger
      height of the video    by nothing, as no clip is too narrow for its height

  So the width is never in danger and the height alone decides: `layoutInWords?_iff`.  In
  a clip that is narrow enough the height is cut off, and the picture loses the
  proportions of the clip: `height_is_cut_off`.
-/
import GifEdit.Proofs.Edit.Validity
import GifEdit.Proofs.Geometry.Rounding
import GifEdit.Proofs.Render.Frames
import GifEdit.Proofs.Scalar.Words

namespace GifEdit

open Exact

/-! ## §1. Checked arithmetic. -/

section Checked

variable {α : Type} [Scalar α]

/-- A value rounded to a word, if the word is the rounded value. -/
def roundedWord? (x : α) : Option Nat :=
  if Scalar.ofNat (roundToWord x) == Scalar.round x then some (roundToWord x) else none

/-- The padding beside a side of the video, if it is not cut off. -/
def Background.marginInWords? (b : Background α) (side : Nat) : Option Nat :=
  if b.enabled then roundedWord? (Scalar.ofNat side * b.padding) else some 0

/-- A side between two margins, if all are words. -/
def padded? (side margin : Nat) : Option Nat := do
  let both ← Scalar.word? (2 * margin)
  Scalar.word? (side + both)

/-- The layout of the GIF, if no step on the way to it leaves the words. -/
def Specification.layoutInWords? (s : Specification α) : Option Layout := do
  let width := evenSide s.exportSettings.width
  let height ← roundedWord? ((Scalar.ofNat width : α) / s.source.frame.aspect)
  let video : Frame := ⟨width, evenSide height⟩
  let x ← s.background.marginInWords? video.width
  let y ← s.background.marginInWords? video.height
  let frameWidth ← padded? video.width x
  let frameHeight ← padded? video.height y
  return ⟨video, ⟨frameWidth, frameHeight⟩, x, y⟩

end Checked

theorem padded?_eq_some {side margin n : Nat} :
    padded? side margin = some n ↔ side + 2 * margin ≤ Scalar.wordMax ∧ side + 2 * margin = n := by
  unfold padded?
  simp only [Option.bind_eq_bind, Option.bind_eq_some_iff, Scalar.word?_eq_some]
  constructor
  · rintro ⟨both, ⟨-, rfl⟩, hsum⟩
    exact hsum
  · rintro ⟨hsum, rfl⟩
    exact ⟨2 * margin, ⟨by omega, rfl⟩, hsum, rfl⟩

/-! ## §2. Rounding to a word. -/

/-- A side is made even by one pixel, and is two pixels at least. -/
theorem evenSide_close (n : Nat) : evenSide n = 2 ∨ n ≤ evenSide n + 1 ∧ evenSide n ≤ n := by
  by_cases h : 2 ≤ n
  · right
    have heven : evenSide n = floorEven n := max_eq_left (two_le_floorEven h)
    rw [heven]
    unfold floorEven
    omega
  · left
    have hsmall : floorEven n ≤ 2 := (floorEven_le n).trans (by omega)
    exact max_eq_right hsmall

theorem evenSide_le {n m : Nat} (hn : n ≤ m) (hm : 2 ≤ m) : evenSide n ≤ m :=
  max_le ((floorEven_le n).trans hn) hm

/-- The nearest whole number, cut off at the largest word. -/
theorem roundToWord_eq {q : ℚ} (hq : 0 ≤ q) : ∃ n : ℕ,
    Scalar.round (rational q) = rational n ∧ roundToWord (rational q) = min Scalar.wordMax n
      ∧ q - 1 / 2 < n ∧ n ≤ q + 1 / 2 := by
  obtain ⟨n, hn, hlow, hhigh⟩ := round_eq hq
  refine ⟨n, hn, ?_, hlow, hhigh⟩
  unfold roundToWord
  rw [hn]
  show min Scalar.wordMax (⌊(n : ℚ)⌋).toNat = _
  rw [Int.floor_natCast, Int.toNat_natCast]

/-- **Nothing is cut off below `2³² − ½`**, and everything is from there on. -/
theorem roundedWord?_eq_some {q : ℚ} (hq : 0 ≤ q) {m : Nat} :
    roundedWord? (rational q) = some m ↔ q < 2 ^ 32 - 1 / 2 ∧ roundToWord (rational q) = m := by
  obtain ⟨n, hround, hword, hlow, hhigh⟩ := roundToWord_eq hq
  have hexact : (Scalar.ofNat (roundToWord (rational q)) == Scalar.round (rational q)) = true
      ↔ q < 2 ^ 32 - 1 / 2 := by
    rw [hword, hround, ofNat_eq, rational_beq, decide_eq_true_eq, Nat.cast_inj, min_eq_right_iff]
    constructor
    · intro h
      have hn : (n : ℚ) ≤ 4294967295 := by exact_mod_cast h
      linarith
    · intro h
      have hn : (n : ℚ) < 4294967296 := by linarith
      have hn' : n < 4294967296 := by exact_mod_cast hn
      exact Nat.le_of_lt_succ hn'
  unfold roundedWord?
  by_cases h : q < 2 ^ 32 - 1 / 2
  · rw [if_pos (hexact.mpr h), Option.some_inj]
    exact ⟨fun hm => ⟨h, hm⟩, And.right⟩
  · rw [if_neg (mt hexact.mp h)]
    exact ⟨nofun, fun hm => absurd hm.1 h⟩

/-! ## §3. Margins. -/

namespace Background

variable {b : Background Exact}

theorem exists_padding (h : b.check = .ok ()) : ∃ p, b.padding = rational p ∧ 0 ≤ p ∧ p ≤ 1 / 2 := by
  unfold check at h
  split_ifs at h with hpadding
  unfold isPadding at hpadding
  rw [Bool.and_eq_true, decide_eq_true_eq, decide_eq_true_eq, literal_eq, fraction_eq] at hpadding
  obtain ⟨p, hp, hlow, hhigh⟩ := exists_of_mem hpadding.1 hpadding.2
  refine ⟨p, hp, ?_, ?_⟩
  · exact_mod_cast hlow
  · norm_num at hhigh ⊢
    exact hhigh

/-- Two margins are no more than the side that they stand beside. -/
theorem two_mul_margin_le (h : b.check = .ok ()) {side : Nat} (heven : side % 2 = 0) :
    2 * b.margin side ≤ side := by
  unfold margin
  cases b.enabled with
  | false => exact Nat.zero_le side
  | true =>
      obtain ⟨p, hp, hlow, hhigh⟩ := exists_padding h
      have hside : (0 : ℚ) ≤ side := Nat.cast_nonneg side
      rw [if_pos rfl, hp, ofNat_eq, rational_mul]
      obtain ⟨n, -, hword, -, hn⟩ := roundToWord_eq (mul_nonneg hside hlow)
      have hhalf : (side : ℚ) * p ≤ side * (1 / 2) := mul_le_mul_of_nonneg_left hhigh hside
      have hdouble : 2 * (n : ℚ) ≤ side + 1 := by linarith
      have hdouble' : 2 * n ≤ side + 1 := by exact_mod_cast hdouble
      have hmin : min Scalar.wordMax n ≤ n := min_le_right _ _
      -- The side is even, so half a pixel more is none.
      rw [hword]
      omega

/-- The margin of a side that is a word is not cut off. -/
theorem marginInWords?_eq (h : b.check = .ok ()) {side : Nat} (hside : side ≤ Scalar.wordMax) :
    b.marginInWords? side = some (b.margin side) := by
  unfold marginInWords? margin
  cases b.enabled with
  | false => rfl
  | true =>
      obtain ⟨p, hp, hlow, hhigh⟩ := exists_padding h
      have hword : (side : ℚ) ≤ 4294967295 := by exact_mod_cast hside
      have hpositive : (0 : ℚ) ≤ side * p := mul_nonneg (Nat.cast_nonneg side) hlow
      have hhalf : (side : ℚ) * p ≤ side * (1 / 2) :=
        mul_le_mul_of_nonneg_left hhigh (Nat.cast_nonneg side)
      rw [if_pos rfl, if_pos rfl, hp, ofNat_eq, rational_mul, roundedWord?_eq_some hpositive]
      refine ⟨?_, rfl⟩
      norm_num
      linarith

end Background

/-! ## §4. The height of the video. -/

namespace Specification

/-- The height that keeps the proportions of the clip, before it is rounded. -/
def properHeight {α : Type} (s : Specification α) : ℚ :=
  evenSide s.exportSettings.width * s.source.height / s.source.width

variable {s : Specification Exact}

theorem properHeight_nonneg : 0 ≤ s.properHeight :=
  div_nonneg (mul_nonneg (Nat.cast_nonneg _) (Nat.cast_nonneg _)) (Nat.cast_nonneg _)

/-- The quotient that is rounded to the height. -/
theorem width_div_aspect (h : s.source.check = .ok ()) :
    (Scalar.ofNat (evenSide s.exportSettings.width) : Exact) / s.source.frame.aspect
      = rational s.properHeight := by
  have hpixels := Clip.frame_hasPixels h
  rw [Frame.aspect_eq hpixels, ofNat_eq, rational_div (Frame.proportion_pos hpixels).ne']
  show rational (_ / ((s.source.width : ℚ) / s.source.height)) = _
  rw [div_div_eq_mul_div]
  rfl

theorem height_eq (h : s.source.check = .ok ()) :
    s.layout.video.height = evenSide (roundToWord (rational s.properHeight)) := by
  rw [← width_div_aspect h]
  rfl

/-- Cut off or not, the height is a word. -/
theorem height_le (h : s.source.check = .ok ()) : s.layout.video.height ≤ Scalar.wordMax := by
  obtain ⟨n, -, hword, -, -⟩ := roundToWord_eq s.properHeight_nonneg
  rw [height_eq h, hword]
  exact evenSide_le (min_le_left _ _) (by decide)

/-- **The height keeps the proportions up to two pixels** exactly if the proper height is
below `2³²`; two pixels are the least height there is. -/
theorem height_close_iff (h : s.source.check = .ok ()) :
    (s.layout.video.height = 2 ∨ |(s.layout.video.height : ℚ) - s.properHeight| < 2)
      ↔ s.properHeight < 2 ^ 32 := by
  obtain ⟨n, -, hword, hlow, hhigh⟩ := roundToWord_eq s.properHeight_nonneg
  rw [height_eq h, hword]
  -- Half a pixel below `2³²` the height is cut off already, and still close.
  by_cases hn : n ≤ Scalar.wordMax
  · rw [min_eq_right hn]
    have hbelow : s.properHeight < 2 ^ 32 := by
      have hn' : (n : ℚ) ≤ 4294967295 := by exact_mod_cast hn
      norm_num
      linarith
    refine iff_of_true ?_ hbelow
    rcases evenSide_close n with htwo | ⟨hdown, hup⟩
    · exact .inl htwo
    · -- Rounding moves the height by a half, and making it even by one.
      have hdown' : (n : ℚ) ≤ evenSide n + 1 := by exact_mod_cast hdown
      have hup' : (evenSide n : ℚ) ≤ n := by exact_mod_cast hup
      exact .inr (abs_lt.mpr ⟨by linarith, by linarith⟩)
  · -- The height is cut off at the largest even word.
    have hcut : evenSide (min Scalar.wordMax n) = 4294967294 := by
      rw [min_eq_left (Nat.le_of_not_le hn)]
      decide
    have hn' : (4294967296 : ℚ) ≤ n := by
      have hmore : 4294967296 ≤ n := Nat.lt_of_not_le hn
      exact_mod_cast hmore
    rw [hcut]
    constructor
    · rintro (htwo | hclose)
      · exact absurd htwo (by decide)
      · have hfar := (abs_lt.mp hclose).1
        norm_num at hfar ⊢
        linarith
    · intro hbelow
      right
      norm_num at hbelow ⊢
      exact abs_lt.mpr ⟨by linarith, by linarith⟩

/-- No height is far above the proper one. -/
theorem height_le_of_properHeight_le (h : s.source.check = .ok ()) {m : ℕ} (hm : 2 ≤ m)
    (hproper : s.properHeight ≤ m) : s.layout.video.height ≤ m := by
  obtain ⟨n, -, hword, -, hhigh⟩ := roundToWord_eq s.properHeight_nonneg
  have hn : (n : ℚ) < m + 1 := by linarith
  have hn' : n ≤ m := Nat.le_of_lt_succ (by exact_mod_cast hn)
  rw [height_eq h, hword]
  exact evenSide_le ((min_le_right _ _).trans hn') hm

/-! ## §5. Layouts. -/

/-- Settings in their ranges leave little room for the width. -/
theorem width_le (h : s.exportSettings.InRange) : s.layout.video.width ≤ 1200 :=
  evenSide_le h.width.2 (by decide)

theorem properHeight_le (h : s.source.check = .ok ()) (hsettings : s.exportSettings.InRange)
    {k : ℕ} (hk : s.source.height ≤ k * s.source.width) : s.properHeight ≤ (1200 * k : ℕ) := by
  have hpixels : (0 : ℚ) < s.source.width := Nat.cast_pos.mpr (Clip.frame_hasPixels h).1
  have hwidth : evenSide s.exportSettings.width ≤ 1200 := width_le hsettings
  have hproduct : evenSide s.exportSettings.width * s.source.height
      ≤ 1200 * k * s.source.width := by
    rw [Nat.mul_assoc]
    exact Nat.mul_le_mul hwidth hk
  unfold properHeight
  rw [div_le_iff₀ hpixels]
  exact_mod_cast hproduct

/-- The width, its margins and the margins of the height are always words: once the height
is not cut off, only its frame is left to be checked. -/
theorem layoutInWords?_eq (h : s.Accepted) (hsettings : s.exportSettings.InRange)
    (hheight : s.properHeight < 2 ^ 32 - 1 / 2) :
    s.layoutInWords? = (padded? s.layout.video.height s.layout.offsetY).map fun height =>
      { s.layout with frame := ⟨s.layout.frame.width, height⟩ } := by
  have hround : roundedWord? (rational s.properHeight)
      = some (roundToWord (rational s.properHeight)) :=
    (roundedWord?_eq_some s.properHeight_nonneg).mpr ⟨hheight, rfl⟩
  have hwidth := width_le hsettings
  have hmargin := Background.two_mul_margin_le h.background s.layout_centred.video.width_even
  have hx : s.background.marginInWords? s.layout.video.width = some s.layout.offsetX :=
    Background.marginInWords?_eq h.background (hwidth.trans (by decide))
  have hy : s.background.marginInWords? s.layout.video.height = some s.layout.offsetY :=
    Background.marginInWords?_eq h.background (height_le h.source)
  have hframe : padded? s.layout.video.width s.layout.offsetX = some s.layout.frame.width := by
    refine padded?_eq_some.mpr ⟨?_, rfl⟩
    have hoffset : 2 * s.layout.offsetX ≤ s.layout.video.width := hmargin
    exact (by omega : _ ≤ 2400).trans (by decide)
  -- Step by step in the order of the computation: the height, its margins, the frame.
  rw [Option.map_eq_bind]
  show (roundedWord? ((Scalar.ofNat (evenSide s.exportSettings.width) : Exact)
    / s.source.frame.aspect)).bind _ = _
  rw [width_div_aspect h.source, hround]
  show (s.background.marginInWords? s.layout.video.width).bind _ = _
  rw [hx]
  show (s.background.marginInWords? (evenSide (roundToWord (rational s.properHeight)))).bind _ = _
  rw [← height_eq h.source, hy]
  show (padded? s.layout.video.width s.layout.offsetX).bind _ = _
  rw [hframe]
  rfl

theorem layoutInWords?_eq_none (h : s.source.check = .ok ())
    (hheight : ¬ s.properHeight < 2 ^ 32 - 1 / 2) : s.layoutInWords? = none := by
  have hround : roundedWord? (rational s.properHeight) = none := by
    rw [Option.eq_none_iff_forall_ne_some]
    intro height hsome
    exact hheight ((roundedWord?_eq_some s.properHeight_nonneg).mp hsome).1
  show (roundedWord? ((Scalar.ofNat (evenSide s.exportSettings.width) : Exact)
    / s.source.frame.aspect)).bind _ = none
  rw [width_div_aspect h, hround]
  rfl

/-- **THE LAYOUT OF AN ACCEPTED EDIT STAYS IN THE WORDS** exactly if the height that keeps the
proportions of the clip can be rounded to a word, and the picture around it is no higher than
a word.  No width is ever in danger.  Up to two pixels, the video keeps the proportions
exactly if its proper height is below `2³²`, and a clip that is at most 1789569 times as high
as it is wide is safe in everything. -/
theorem layout_stays_in_words_iff (source : Clip Exact) (trim : TrimRange Exact)
    (crop : Option Region) (zoom : ZoomWindow Exact) (exportSettings : ExportSettings)
    (background : Background Exact) (s : Specification Exact)
    (hs : ofParts source trim crop zoom exportSettings background = .ok s)
    (hsettings : s.exportSettings.InRange) :
    (∀ l, s.layoutInWords? = some l ↔ s.properHeight < 2 ^ 32 - 1 / 2
        ∧ s.layout.frame.height < 2 ^ 32 ∧ l = s.layout)
      ∧ (s.layout.video.height = 2 ∨ |(s.layout.video.height : ℚ) - s.properHeight| < 2
          ↔ s.properHeight < 2 ^ 32)
      ∧ (s.source.height ≤ 1789569 * s.source.width → s.layoutInWords? = some s.layout) := by
  have h := accepted_of_ofParts hs
  have hiff : ∀ l, s.layoutInWords? = some l ↔ s.properHeight < 2 ^ 32 - 1 / 2
      ∧ s.layout.frame.height < 2 ^ 32 ∧ l = s.layout := by
    intro l
    -- A height that can be rounded leaves only the sum to be checked; any other stops before it.
    by_cases hheight : s.properHeight < 2 ^ 32 - 1 / 2
    · rw [layoutInWords?_eq h hsettings hheight, Option.map_eq_some_iff]
      simp only [padded?_eq_some]
      constructor
      · rintro ⟨height, ⟨hword, rfl⟩, rfl⟩
        exact ⟨hheight, Nat.lt_succ_of_le hword, rfl⟩
      · rintro ⟨-, hword, rfl⟩
        exact ⟨_, ⟨Nat.le_of_lt_succ hword, rfl⟩, rfl⟩
    · refine iff_of_false ?_ fun hall => hheight hall.1
      rw [layoutInWords?_eq_none h.source hheight]
      exact nofun
  refine ⟨hiff, height_close_iff h.source, ?_⟩
  intro hnarrow
  -- A width of at most 1200 bounds the height, and a margin is no larger than the side.
  have hproper := properHeight_le h.source hsettings hnarrow
  have hheight := height_le_of_properHeight_le h.source (by decide) hproper
  have hmargin := Background.two_mul_margin_le h.background s.layout_centred.video.height_even
  refine (hiff s.layout).mpr ⟨?_, ?_, rfl⟩
  · push_cast at hproper
    linarith
  · show s.layout.video.height + 2 * s.background.margin s.layout.video.height < 2 ^ 32
    omega

/-- The narrowest clip that is safe, with the widest picture: two pixels wide, and the frame is
1696 below the words. -/
theorem layout_stays_in_words_narrow :
    let source : Clip Exact := ⟨"clip.mp4", 10, 2, 3579138⟩
    let settings : ExportSettings := { ExportSettings.standard with width := 1200 }
    let background : Background Exact := ⟨true, ⟨41, 41, 41⟩, 0.5, 16⟩
    let s : Specification Exact := ⟨source, ⟨0, 10⟩, none, .none, settings, background⟩
    ofParts source ⟨0, 10⟩ none .none settings background = .ok s
      ∧ s.layout = ⟨⟨1200, 2147482800⟩, ⟨2400, 4294965600⟩, 600, 1073741400⟩
      ∧ s.layoutInWords? = some s.layout := by
  intro source settings background s
  have hs : ofParts source ⟨0, 10⟩ none .none settings background = .ok s := by decide +kernel
  have hlayout : s.layout = ⟨⟨1200, 2147482800⟩, ⟨2400, 4294965600⟩, 600, 1073741400⟩ := by
    decide +kernel
  have hsettings : s.exportSettings.InRange :=
    { ExportSettings.inRange_standard with width := ⟨by decide, by decide⟩ }
  obtain ⟨-, -, hsafe⟩ := layout_stays_in_words_iff _ _ _ _ _ _ s hs hsettings
  exact ⟨hs, hlayout, hsafe (by decide)⟩

/-- **A height may be cut off**: the clip is accepted, and the height that keeps its proportions
is three hundred times the one it gets, the largest even word. -/
theorem height_is_cut_off :
    let source : Clip Exact := ⟨"clip.mp4", 10, 2, 4294967295⟩
    let s : Specification Exact := ⟨source, ⟨0, 10⟩, none, .none, .standard, .standard⟩
    ofParts source ⟨0, 10⟩ none .none .standard .standard = .ok s
      ∧ s.layout = ⟨⟨600, 4294967294⟩, ⟨600, 4294967294⟩, 0, 0⟩
      ∧ s.properHeight = 1288490188500 ∧ s.layoutInWords? = none := by
  decide +kernel

end Specification
end GifEdit
