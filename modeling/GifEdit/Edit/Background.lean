/-
  GifEdit.Edit.Background
  ───────────────────────
  **COLORS AND THE BACKDROP.**

  A color is written `#rrggbb`.  The backdrop is a padded frame of one color behind
  the video, whose corners are rounded.
-/
import GifEdit.Edit.Error

namespace GifEdit

/-! ## §1. Colors. -/

/-- An opaque color; each channel is below 256. -/
structure Color where
  r : Nat
  g : Nat
  b : Nat
  deriving Repr, DecidableEq, Inhabited

namespace Color

/-- The value of a hexadecimal digit. -/
def hexDigit? (c : Char) : Option Nat :=
  if '0' ≤ c && c ≤ '9' then some (c.toNat - '0'.toNat)
  else if 'a' ≤ c && c ≤ 'f' then some (c.toNat - 'a'.toNat + 10)
  else if 'A' ≤ c && c ≤ 'F' then some (c.toNat - 'A'.toNat + 10)
  else none

/-- The channel two digits stand for. -/
def channel? (a b : Char) : Option Nat := do return 16 * (← hexDigit? a) + (← hexDigit? b)

/-- The color a text names: a `#` and six hexadecimal digits. -/
def ofChars? : List Char → Option Color
  | ['#', r, r', g, g', b, b'] => do return ⟨← channel? r r', ← channel? g g', ← channel? b b'⟩
  | _ => none

/-- The color a text names. -/
def ofText {α : Type} (s : String) : Except (EditError α) Color :=
  match ofChars? s.toList with
  | some c => .ok c
  | none => .error (.invalidColor s)

/-- Two hexadecimal digits. -/
def channelChars (n : Nat) : List Char := [Nat.digitChar (n / 16), Nat.digitChar (n % 16)]

/-- The six digits of a color. -/
def digits (c : Color) : List Char := channelChars c.r ++ channelChars c.g ++ channelChars c.b

/-- A color as it is written. -/
def text (c : Color) : String := String.ofList ('#' :: c.digits)

/-- A color as filters take it. -/
def filterText (c : Color) : String := String.ofList ('0' :: 'x' :: c.digits)

end Color

/-! ## §2. The backdrop. -/

/-- The frame behind the video. -/
structure Background (α : Type) where
  enabled : Bool
  color : Color
  /-- Share of the frame size added on each side. -/
  padding : α
  /-- Corner radius in output pixels. -/
  borderRadius : Nat
  deriving Repr, DecidableEq

namespace Background

variable {α : Type} [Scalar α]

/-- The backdrop of a new edit: prepared, but off. -/
def standard : Background α := ⟨false, ⟨0x29, 0x29, 0x29⟩, 0.1, 16⟩

instance : Inhabited (Background α) := ⟨standard⟩

/-- Whether a padding leaves the video visible. -/
def isPadding (p : α) : Bool := 0 ≤ p && p ≤ 0.5

/-- Checks the padding. -/
def check (b : Background α) : Except (EditError α) Unit :=
  if isPadding b.padding then .ok () else .error (.invalidPadding b.padding)

end Background
end GifEdit
