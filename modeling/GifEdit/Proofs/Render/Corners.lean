/-
  GifEdit.Proofs.Render.Corners
  ─────────────────────────────
  **THE CORNERS OF A MASK.**

  A pixel is judged by its centre, axis by axis.  On an axis of length `n` an arc of radius
  `r` is centred `r` from either end, and a position `p` OVERHANGS the centre by

      r - p           in the strip at the front
      p - (n - r)     in the strip at the back

  whichever is more; between the strips both are negative.  The two overhangs of a pixel
  decide all about it: it lies in a corner box where both are positive, and then it is the
  clearer the farther it hangs over.  An overhang is the distance from the middle of the
  axis less that of the centre, so mirror images have the same one, and it shrinks on the
  way to the middle.

  The lemmas:

    * `alphaAt_eq`    — a pixel is as opaque as its overhangs make it,
    * `opacity_anti`  — and the more opaque the less it hangs over,
    * `overhang_eq`   — which is a matter of its distance from the middle,
    * `pixels_eq`     — and it is white,
    * `pixel_eq`      — also in the file.

  Main result: `MaskShape.corners_are_round`, for every mask and each of its pixels.
-/
import GifEdit.Render.Png
import GifEdit.Proofs.Geometry.Rounding

namespace GifEdit

open Exact

/-! ## §1. Overhangs. -/

section Axis

variable {n r p q : ℚ}

/-- How far a position hangs over the centre of its arc. -/
def overhang (n r p : ℚ) : ℚ := max (r - p) (p - (n - r))

/-- The overhang is the distance from the middle less that of the centres of the arcs. -/
theorem overhang_eq (n r p : ℚ) : overhang n r p = |2 * p - n| / 2 - (n / 2 - r) := by
  unfold overhang
  rcases abs_cases (2 * p - n) with ⟨habs, hsign⟩ | ⟨habs, hsign⟩
  · rw [habs, max_eq_right (by linarith)]
    ring
  · rw [habs, max_eq_left (by linarith)]
    ring

/-- Towards the middle it gets less, and mirror images have the same. -/
theorem overhang_le (h : |2 * q - n| ≤ |2 * p - n|) : overhang n r q ≤ overhang n r p := by
  rw [overhang_eq, overhang_eq]
  linarith

/-- The arc of a position: its centre is one overhang away, or there is none. -/
theorem arcCentre?_eq (h : 2 * r ≤ n) :
    (∃ c : ℚ, arcCentre? (rational n) (rational r) (rational p) = some (rational c)
        ∧ 0 < overhang n r p ∧ (p - c) ^ 2 = overhang n r p ^ 2)
      ∨ arcCentre? (rational n) (rational r) (rational p) = none ∧ ¬ 0 < overhang n r p := by
  unfold arcCentre? overhang
  simp only [rational_lt, rational_sub]
  -- Both strips at once would be wider than the axis.
  by_cases hfront : p < r
  · have hmax : max (r - p) (p - (n - r)) = r - p := max_eq_left (by linarith)
    refine .inl ⟨r, if_pos hfront, ?_, ?_⟩
    · rw [hmax]
      linarith
    · rw [hmax]
      ring
  · rw [if_neg hfront]
    by_cases hback : n - r < p
    · have hmax : max (r - p) (p - (n - r)) = p - (n - r) := max_eq_right (by linarith)
      refine .inl ⟨n - r, if_pos hback, ?_, ?_⟩
      · rw [hmax]
        linarith
      · rw [hmax]
    · refine .inr ⟨if_neg hback, ?_⟩
      rw [lt_max_iff]
      rintro (h | h) <;> linarith

end Axis

/-! ## §2. Opacity. -/

section Opacity

variable {r : ℚ}

/-- How opaque a pixel is at a distance from the centre of its arc. -/
def arcAlpha (r : ℚ) (distance : Exact) : ℕ :=
  Scalar.wholeUpTo 255 (Scalar.round (arcCoverage (rational r) distance * 255))

/-- The coverage is a share, and less of one farther away. -/
theorem arcCoverage_eq (r : ℚ) {d d' : Exact} (h : d ≤ d') : ∃ c c' : ℚ,
    arcCoverage (rational r) d = rational c ∧ arcCoverage (rational r) d' = rational c'
      ∧ 0 ≤ c' ∧ c' ≤ c ∧ c ≤ 1 := by
  have hnear : arcCoverage (rational r) negInfinity = rational 1 := by
    show Scalar.clamp posInfinity (0 : Exact) 1 = rational 1
    unfold Scalar.clamp
    simp
  have hfar : arcCoverage (rational r) posInfinity = rational 0 := by
    show Scalar.clamp negInfinity (0 : Exact) 1 = rational 0
    unfold Scalar.clamp
    simp
  have hfinite (q : ℚ) : arcCoverage (rational r) (rational q)
      = rational (max 0 (min (r - q + 1 / 2) 1)) := by
    have hhalf : (0.5 : Exact) = rational (1 / 2) := by
      rw [fraction_eq]
      norm_num
    unfold arcCoverage
    rw [rational_sub, hhalf, rational_add, literal_eq, literal_eq, Nat.cast_zero, Nat.cast_one,
      clamp_rational zero_le_one]
  have hshare (q : ℚ) : 0 ≤ max 0 (min (r - q + 1 / 2) 1)
      ∧ max 0 (min (r - q + 1 / 2) 1) ≤ 1 :=
    ⟨le_max_left _ _, max_le zero_le_one (min_le_right _ _)⟩
  -- An undefined distance is in no order, and an endless one is covered wholly or not at all.
  cases d with
  | undefined => exact nomatch h
  | posInfinity =>
      cases d' with
      | posInfinity => exact ⟨0, 0, hfar, hfar, le_rfl, le_rfl, zero_le_one⟩
      | _ => exact nomatch h
  | negInfinity =>
      cases d' with
      | undefined => exact nomatch h
      | negInfinity => exact ⟨1, 1, hnear, hnear, zero_le_one, le_rfl, le_rfl⟩
      | rational q => exact ⟨1, _, hnear, hfinite q, (hshare q).1, (hshare q).2, le_rfl⟩
      | posInfinity => exact ⟨1, 0, hnear, hfar, le_rfl, zero_le_one, le_rfl⟩
  | rational p =>
      cases d' with
      | undefined => exact nomatch h
      | negInfinity => exact nomatch h
      | posInfinity => exact ⟨_, 0, hfinite p, hfar, le_rfl, (hshare p).1, (hshare p).2⟩
      | rational q =>
          have hpq : p ≤ q := rational_le.mp h
          refine ⟨_, _, hfinite p, hfinite q, (hshare q).1, ?_, (hshare p).2⟩
          exact max_le_max le_rfl (min_le_min (by linarith) le_rfl)

/-- What is farther from its centre is no more opaque. -/
theorem arcAlpha_le (r : ℚ) {d d' : Exact} (h : d ≤ d') : arcAlpha r d' ≤ arcAlpha r d := by
  obtain ⟨c, c', hc, hc', hpos, hle, -⟩ := arcCoverage_eq r h
  -- The shares may be closer than a step of the scale, so both are compared as they round.
  have hwhole {v : ℚ} (hv : 0 ≤ v) : ∃ k : ℕ,
      Scalar.wholeUpTo 255 (Scalar.round (rational v * 255)) = min 255 k
        ∧ v * 255 - 1 / 2 < k ∧ (k : ℚ) ≤ v * 255 + 1 / 2 := by
    obtain ⟨k, hk, hlow, hhigh⟩ := round_eq (mul_nonneg hv (by norm_num : (0 : ℚ) ≤ 255))
    refine ⟨k, ?_, hlow, hhigh⟩
    have hfull : (255 : Exact) = rational 255 := literal_eq 255
    rw [hfull, rational_mul, hk]
    show min 255 (⌊(k : ℚ)⌋).toNat = _
    rw [Int.floor_natCast, Int.toNat_natCast]
  unfold arcAlpha
  rw [hc, hc']
  obtain ⟨k, hk, hlow, -⟩ := hwhole (hpos.trans hle)
  obtain ⟨k', hk', -, hhigh⟩ := hwhole hpos
  rw [hk, hk']
  have hless : (k' : ℚ) < k + 1 := by linarith
  exact min_le_min le_rfl (Nat.lt_succ_iff.mp (by exact_mod_cast hless))

theorem arcAlpha_le_full (r : ℚ) (d : Exact) : arcAlpha r d ≤ 255 := by
  unfold arcAlpha
  generalize Scalar.round (arcCoverage (rational r) d * 255) = v
  cases v with
  | rational q => exact Nat.min_le_left 255 _
  | posInfinity => exact le_rfl
  | undefined => exact Nat.zero_le 255
  | negInfinity => exact Nat.zero_le 255

variable [SquareRoot Exact]

/-- How opaque a pixel is that hangs over by so much on either axis. -/
def opacity (r across down : ℚ) : ℕ :=
  if r < 1 / 2 then 255
  else if 0 < across ∧ 0 < down then
    arcAlpha r (SquareRoot.sqrt (rational (across ^ 2 + down ^ 2)))
  else 255

theorem opacity_le_full (r across down : ℚ) : opacity r across down ≤ 255 := by
  unfold opacity
  split
  · exact le_rfl
  · split
    · exact arcAlpha_le_full r _
    · exact le_rfl

/-- Only what hangs over on both axes is clear. -/
theorem opacity_of_not_pos {across down : ℚ} (h : ¬ (0 < across ∧ 0 < down)) :
    opacity r across down = 255 := by
  unfold opacity
  rw [if_neg h, ite_self]

/-- Square roots that grow with the number. -/
def MonotoneRoots : Prop :=
  ∀ p q : ℚ, 0 ≤ p → p ≤ q →
    (SquareRoot.sqrt (rational p) : Exact) ≤ SquareRoot.sqrt (rational q)

/-- **Who hangs over less is no clearer.** -/
theorem opacity_anti (hroots : MonotoneRoots) {across across' down down' : ℚ}
    (hacross : across' ≤ across) (hdown : down' ≤ down) :
    opacity r across down ≤ opacity r across' down' := by
  by_cases hinside : 0 < across' ∧ 0 < down'
  · obtain ⟨hacross', hdown'⟩ := hinside
    have hfarther : 0 < across ∧ 0 < down := ⟨hacross'.trans_le hacross, hdown'.trans_le hdown⟩
    unfold opacity
    by_cases hsmall : r < 1 / 2
    · rw [if_pos hsmall, if_pos hsmall]
    · rw [if_neg hsmall, if_neg hsmall, if_pos hfarther, if_pos ⟨hacross', hdown'⟩]
      refine arcAlpha_le r (hroots _ _ (by positivity) ?_)
      have hsquare := pow_le_pow_left₀ hacross'.le hacross 2
      have hsquare' := pow_le_pow_left₀ hdown'.le hdown 2
      linarith
  · rw [opacity_of_not_pos hinside]
    exact opacity_le_full r across down

end Opacity

/-! ## §3. Corner boxes. -/

namespace MaskShape

variable (m : MaskShape) {x y : ℕ}

/-- The side of the corner boxes. -/
def cornerSide : ℚ := min m.radius ((min m.width m.height : ℕ) / 2)

/-- The centre of a pixel on its axis. -/
def centre (i : ℕ) : ℚ := i + 1 / 2

/-- Where the four corner boxes begin. -/
def corners : List (ℚ × ℚ) :=
  [(0, 0), (m.width - m.cornerSide, 0), (0, m.height - m.cornerSide),
    (m.width - m.cornerSide, m.height - m.cornerSide)]

/-- Whether a point lies in a corner box. -/
def InCorner (px py : ℚ) : Prop :=
  ∃ corner ∈ m.corners, (corner.1 < px ∧ px < corner.1 + m.cornerSide)
    ∧ corner.2 < py ∧ py < corner.2 + m.cornerSide

/-- Whether the second of two pixels on an axis is no farther from its middle. -/
def NoFarther (n i j : ℕ) : Prop := |2 * centre j - n| ≤ |2 * centre i - n|

theorem arcRadius_eq : (m.arcRadius : Exact) = rational m.cornerSide := by
  unfold arcRadius cornerSide
  have htwo : (2 : Exact) = rational 2 := literal_eq 2
  rw [ofNat_eq, ofNat_eq, htwo, rational_div two_ne_zero, min_rational]

/-- Two boxes fit beside each other on either axis. -/
theorem cornerSide_le {n : ℕ} (hn : min m.width m.height ≤ n) : 2 * m.cornerSide ≤ n := by
  have hhalf : m.cornerSide ≤ (min m.width m.height : ℕ) / 2 := min_le_right _ _
  have hside : ((min m.width m.height : ℕ) : ℚ) ≤ n := by exact_mod_cast hn
  linarith

/-- Mirror images hang over alike. -/
theorem overhang_mirrored {n i : ℕ} (h : i < n) (r : ℚ) :
    overhang n r (centre (n - 1 - i)) = overhang n r (centre i) := by
  have hcentre : 2 * centre (n - 1 - i) - n = -(2 * centre i - n) := by
    have hcast : ((n - 1 - i : ℕ) : ℚ) = n - 1 - i := by
      rw [Nat.cast_sub (by omega), Nat.cast_sub (by omega), Nat.cast_one]
    unfold centre
    rw [hcast]
    ring
  rw [overhang_eq, overhang_eq, hcentre, abs_neg]

/-- A position that hangs over lies in one of the two strips. -/
theorem strip_of_overhang {n i : ℕ} (h : i < n) {r : ℚ} (hpos : 0 < overhang n r (centre i)) :
    ∃ start ∈ [(0 : ℚ), n - r], start < centre i ∧ centre i < start + r := by
  have hfirst : 0 < centre i := by
    unfold centre
    positivity
  have hlast : centre i < n := by
    have hcast : (i : ℚ) + 1 ≤ n := by exact_mod_cast h
    unfold centre
    linarith
  unfold overhang at hpos
  rcases lt_max_iff.mp hpos with hfront | hback
  · exact ⟨0, by simp, hfirst, by linarith⟩
  · exact ⟨n - r, by simp, by linarith, by linarith⟩

/-! ## §4. The pixels of a mask. -/

variable [SquareRoot Exact]

/-- The opacity of a pixel, by its overhangs. -/
def alpha (x y : ℕ) : ℕ :=
  opacity m.cornerSide (overhang m.width m.cornerSide (centre x))
    (overhang m.height m.cornerSide (centre y))

/-- **A pixel is as opaque as its overhangs make it.** -/
theorem alphaAt_eq (x y : ℕ) : m.alphaAt (m.arcRadius : Exact) x y = m.alpha x y := by
  have hhalf : (0.5 : Exact) = rational (1 / 2) := by
    rw [fraction_eq]
    norm_num
  have hcentre (i : ℕ) : (pixelCentre i : Exact) = rational (centre i) := by
    unfold pixelCentre centre
    rw [ofNat_eq, hhalf, rational_add]
  unfold alphaAt alpha opacity
  rw [arcRadius_eq, ofNat_eq, ofNat_eq, hcentre, hcentre, hhalf]
  simp only [rational_lt]
  split
  · rfl
  · obtain ⟨cx, hx, hposx, hsquarex⟩ | ⟨hx, hposx⟩ :=
      arcCentre?_eq (p := centre x) (m.cornerSide_le (Nat.min_le_left _ _))
    · obtain ⟨cy, hy, hposy, hsquarey⟩ | ⟨hy, hposy⟩ :=
        arcCentre?_eq (p := centre y) (m.cornerSide_le (Nat.min_le_right _ _))
      · rw [hx, hy, if_pos ⟨hposx, hposy⟩, ← hsquarex, ← hsquarey]
        unfold square arcAlpha
        simp only [rational_sub, rational_mul, rational_add, sq]
      · rw [hx, hy, if_neg fun h => hposy h.2]
    · rw [hx, if_neg fun h => hposx h.1]

/-- The left half mirrors the right one. -/
theorem alpha_mirrored_across (hx : x < m.width) (y : ℕ) :
    m.alpha (m.width - 1 - x) y = m.alpha x y := by
  unfold alpha
  rw [overhang_mirrored hx]

/-- The upper half mirrors the lower one. -/
theorem alpha_mirrored_down (x : ℕ) (hy : y < m.height) :
    m.alpha x (m.height - 1 - y) = m.alpha x y := by
  unfold alpha
  rw [overhang_mirrored hy]

/-- Towards the middle of the mask pixels are no clearer. -/
theorem alpha_mono (hroots : MonotoneRoots) {x' y' : ℕ} (hx : NoFarther m.width x x')
    (hy : NoFarther m.height y y') : m.alpha x y ≤ m.alpha x' y' :=
  opacity_anti hroots (overhang_le hx) (overhang_le hy)

/-- Outside the corner boxes a mask is opaque. -/
theorem alpha_of_not_inCorner (hx : x < m.width) (hy : y < m.height)
    (h : ¬ m.InCorner (centre x) (centre y)) : m.alpha x y = 255 := by
  refine opacity_of_not_pos fun ⟨hacross, hdown⟩ => h ?_
  obtain ⟨left, hleft, hcolumn⟩ := strip_of_overhang hx hacross
  obtain ⟨top, htop, hrow⟩ := strip_of_overhang hy hdown
  refine ⟨(left, top), ?_, hcolumn, hrow⟩
  unfold corners
  simp only [List.mem_cons, List.not_mem_nil, or_false] at hleft htop
  rcases hleft with rfl | rfl <;> rcases htop with rfl | rfl <;> simp

/-- **The pixels of a mask** are white, and as opaque as they hang over. -/
theorem pixels_eq (hx : x < m.width) (hy : y < m.height) :
    ∃ row, (m.pixels Exact)[y]? = some row
      ∧ row[x]? = some { Pixel.white with alpha := .ofNat (m.alpha x y) } := by
  unfold pixels rows
  simp [hx, hy, alphaAt_eq]

/-- All rows are as long as the mask is wide. -/
theorem length_of_mem_pixels {row : List Pixel} (h : row ∈ m.pixels Exact) :
    row.length = m.width := by
  obtain ⟨alphas, halphas, rfl⟩ := List.mem_map.mp h
  obtain ⟨y, -, rfl⟩ := List.mem_map.mp halphas
  rw [List.length_map, List.length_map, List.length_range]

end MaskShape

/-! ## §5. The file. -/

/-- Pieces of one length: whole pieces are dropped with what they were made of. -/
theorem drop_flatMap {β γ : Type} (pieces : β → List γ) (k : ℕ) :
    ∀ (items : List β), (∀ a ∈ items, (pieces a).length = k) → ∀ i : ℕ,
      (items.flatMap pieces).drop (k * i) = (items.drop i).flatMap pieces := by
  intro items
  induction items with
  | nil =>
      intro _ i
      rw [List.drop_nil, List.flatMap_nil, List.drop_nil]
  | cons a items ih =>
      intro hk i
      cases i with
      | zero => rfl
      | succ i =>
          have hlength : k * (i + 1) = (pieces a).length + k * i := by
            rw [hk a (List.mem_cons_self ..), Nat.mul_succ, Nat.add_comm]
          rw [List.flatMap_cons, hlength, ← List.drop_drop, List.drop_left, List.drop_succ_cons]
          exact ih (fun b hb => hk b (List.mem_cons_of_mem a hb)) i

namespace Png

/-- A row of pixels is its mark and four bytes for each of them. -/
theorem length_row (pixels : List Pixel) : (row pixels).length = 1 + 4 * pixels.length := by
  unfold row
  induction pixels with
  | nil => rfl
  | cons p pixels ih =>
      rw [List.flatMap_cons, List.length_cons, List.length_append]
      rw [List.length_cons] at ih
      simp only [channels, List.length_cons, List.length_nil]
      omega

/-- **Where the data holds a pixel** of a picture whose rows are of one width. -/
theorem take_drop_flatMap_row {rows : List (List Pixel)} {w x y : ℕ} {pixels : List Pixel}
    {p : Pixel} (hw : ∀ r ∈ rows, r.length = w) (hrow : rows[y]? = some pixels)
    (hpixel : pixels[x]? = some p) :
    ((rows.flatMap row).drop ((1 + 4 * w) * y + (1 + 4 * x))).take 4 = channels p := by
  have hlength : ∀ r ∈ rows, (row r).length = 1 + 4 * w := by
    intro r hr
    rw [length_row, hw r hr]
  obtain ⟨hy, rfl⟩ := List.getElem?_eq_some_iff.mp hrow
  obtain ⟨hx, rfl⟩ := List.getElem?_eq_some_iff.mp hpixel
  rw [← List.drop_drop, drop_flatMap _ _ _ hlength, List.drop_eq_getElem_cons hy,
    List.flatMap_cons, List.drop_append_of_le_length]
  · -- The mark of the row is one byte, and a pixel has four.
    unfold row
    rw [Nat.add_comm 1, List.drop_succ_cons, drop_flatMap _ 4 _ (fun _ _ => rfl),
      List.drop_eq_getElem_cons hx, List.flatMap_cons]
    rfl
  · rw [length_row]
    omega

end Png

namespace MaskShape

section Pixels

variable (m : MaskShape) {x y : ℕ} [SquareRoot Exact]

/-- The bytes of a pixel in the data of the picture, where a mark stands before each row. -/
def pixel (x y : ℕ) : List UInt8 :=
  (((m.pixels Exact).flatMap Png.row).drop ((1 + 4 * m.width) * y + (1 + 4 * x))).take 4

/-- The file has a white pixel there, as opaque as it should be. -/
theorem pixel_eq (hx : x < m.width) (hy : y < m.height) :
    m.pixel x y = [255, 255, 255, .ofNat (m.alpha x y)] := by
  obtain ⟨row, hrow, hpixel⟩ := m.pixels_eq hx hy
  exact Png.take_drop_flatMap_row (fun _ => m.length_of_mem_pixels) hrow hpixel

/-! ## §6. Round corners. -/

/-- **THE CORNERS OF A MASK ARE ROUND**, and nothing else of it is clear, whatever the
square roots are, as long as they grow: each pixel is white and as opaque as its mirror
images; outside the corner boxes it is opaque; and no pixel that is on neither axis farther
from the middle is clearer. -/
theorem corners_are_round (hroots : MonotoneRoots) (m : MaskShape) (x y : ℕ)
    (hx : x < m.width) (hy : y < m.height) :
    ∃ a : UInt8, m.pixel x y = [255, 255, 255, a]
      ∧ m.pixel (m.width - 1 - x) y = [255, 255, 255, a]
      ∧ m.pixel x (m.height - 1 - y) = [255, 255, 255, a]
      ∧ (¬ m.InCorner (centre x) (centre y) → a = 255)
      ∧ ∀ x' < m.width, ∀ y' < m.height, NoFarther m.width x x' → NoFarther m.height y y' →
          ∃ b : UInt8, m.pixel x' y' = [255, 255, 255, b] ∧ a ≤ b := by
  have hbyte (i j : ℕ) : (UInt8.ofNat (m.alpha i j)).toNat = m.alpha i j :=
    UInt8.toNat_ofNat_of_lt' (Nat.lt_succ_iff.mpr (opacity_le_full _ _ _))
  refine ⟨.ofNat (m.alpha x y), m.pixel_eq hx hy, ?_, ?_, ?_, ?_⟩
  · rw [m.pixel_eq (by omega) hy, m.alpha_mirrored_across hx]
  · rw [m.pixel_eq hx (by omega), m.alpha_mirrored_down x hy]
  · intro houtside
    rw [m.alpha_of_not_inCorner hx hy houtside]
    rfl
  · intro x' hx' y' hy' hcolumn hrow
    refine ⟨.ofNat (m.alpha x' y'), m.pixel_eq hx' hy', ?_⟩
    rw [UInt8.le_iff_toNat_le, hbyte, hbyte]
    exact m.alpha_mono hroots hcolumn hrow

end Pixels

/-- Square roots to three places. -/
abbrev rootsToThousandths : SquareRoot Exact where
  sqrt
    | rational q => rational ((Nat.sqrt ⌊q * 1000000⌋.toNat : ℚ) / 1000)
    | x => x

/-- In a mask of five by four pixels, whose radius of three is cut down to two, a pixel on
the arc, its mirror images and its neighbour in the middle column. -/
theorem corners_are_round_small :
    let _ : SquareRoot Exact := rootsToThousandths
    let m : MaskShape := ⟨5, 4, 3⟩
    MonotoneRoots ∧ 1 < m.width ∧ 0 < m.height
      ∧ m.pixel 1 0 = [255, 255, 255, 234] ∧ m.pixel 3 0 = [255, 255, 255, 234]
      ∧ m.pixel 1 3 = [255, 255, 255, 234] ∧ m.InCorner (centre 1) (centre 0)
      ∧ NoFarther m.width 1 2 ∧ ∃ b : UInt8, m.pixel 2 0 = [255, 255, 255, b] ∧ 234 ≤ b := by
  intro _ m
  have hroots : MonotoneRoots := by
    intro p q hp hpq
    refine rational_le.mpr ?_
    have hfloor : ⌊p * 1000000⌋ ≤ ⌊q * 1000000⌋ := Int.floor_le_floor (by linarith)
    have hroot := Nat.sqrt_le_sqrt (Int.toNat_le_toNat hfloor)
    have hcast : (Nat.sqrt ⌊p * 1000000⌋.toNat : ℚ) ≤ Nat.sqrt ⌊q * 1000000⌋.toNat := by
      exact_mod_cast hroot
    linarith
  have hcorner : m.InCorner (centre 1) (centre 0) := by
    refine ⟨(0, 0), List.mem_cons_self .., ?_⟩
    norm_num [m, centre, cornerSide]
  have hnearer : NoFarther m.width 1 2 := by
    norm_num [m, NoFarther, centre]
  obtain ⟨a, ha, hacross, hdown, -, hmono⟩ :=
    corners_are_round hroots m 1 0 (by decide) (by decide)
  have hvalue : m.pixel 1 0 = [255, 255, 255, 234] := by decide +kernel
  rw [hvalue] at ha
  obtain rfl : 234 = a := by simpa using ha
  exact ⟨hroots, by decide, by decide, hvalue, hacross, hdown, hcorner, hnearer,
    hmono 2 (by decide) 0 (by decide) hnearer (le_refl _)⟩

end MaskShape
end GifEdit
