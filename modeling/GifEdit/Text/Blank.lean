/-
  GifEdit.Text.Blank
  ──────────────────
  **BLANKS, LINES AND TRIMMING.**

  A blank is one of the 25 characters with the Unicode property White_Space.
  Lines end at a line feed, which may follow a carriage return; trimming removes
  blanks at both ends.
-/
namespace GifEdit.Text

/-! ## §1. Blanks. -/

/-- The ranges of the property White_Space, ascending and apart. -/
def blankRanges : List (Nat × Nat) :=
  [(0x09, 0x0D), (0x20, 0x20), (0x85, 0x85), (0xA0, 0xA0), (0x1680, 0x1680), (0x2000, 0x200A),
   (0x2028, 0x2029), (0x202F, 0x202F), (0x205F, 0x205F), (0x3000, 0x3000)]

/-- Whether a character is a blank. -/
def isBlank (c : Char) : Bool :=
  blankRanges.any fun r => r.1 ≤ c.toNat && c.toNat ≤ r.2

/-- A text without the blanks at its front. -/
def trimFront (cs : List Char) : List Char := cs.dropWhile isBlank

/-- A text without the blanks at its ends. -/
def trim (cs : List Char) : List Char := (trimFront (trimFront cs).reverse).reverse

/-! ## §2. Lines. -/

/-- The pieces of a text between line feeds: one more than there are line feeds. -/
def pieces : List Char → List (List Char)
  | [] => [[]]
  | '\n' :: cs => [] :: pieces cs
  | c :: cs =>
      match pieces cs with
      | [] => [[c]]
      | piece :: rest => (c :: piece) :: rest

/-- A line without the carriage return that ends it, if one does. -/
def dropReturn (line : List Char) : List Char :=
  if line.getLast? = some '\r' then line.dropLast else line

/-- The lines of a text.  What follows the last line feed is a line only if it is
not empty, and only there a final carriage return is kept. -/
def lines (cs : List Char) : List (List Char) :=
  let ps := pieces cs
  let whole := ps.dropLast.map dropReturn
  match ps.getLast? with
  | none | some [] => whole
  | some last => whole ++ [last]

/-- Splits a text at the first occurrence of a character. -/
def splitOnce (mark : Char) (cs : List Char) : Option (List Char × List Char) :=
  match cs.dropWhile (· != mark) with
  | [] => none
  | _ :: rest => some (cs.takeWhile (· != mark), rest)

end GifEdit.Text
