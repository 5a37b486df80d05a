/-
  GifEdit.Text.Quoted
  ───────────────────
  **TEXTS IN DOUBLE QUOTES, AS MESSAGES SHOW THEM.**

  A message that quotes a user's text must show exactly what was given.  Quotes
  and backslashes get a backslash, the common controls their letter, and every
  other character that does not show by itself its code point in braces.
-/
import GifEdit.Text.Unprintable

namespace GifEdit.Text

/-! ## §1. One character. -/

/-- The code point of a character in hexadecimal digits. -/
def hexChars (n : Nat) : List Char := Nat.toDigits 16 n

/-- How a character is written between quotes. -/
def quotedChar (c : Char) : List Char :=
  if c = '"' then ['\\', '"']
  else if c = '\\' then ['\\', '\\']
  else if c = '\n' then ['\\', 'n']
  else if c = '\r' then ['\\', 'r']
  else if c = '\t' then ['\\', 't']
  else if c = '\x00' then ['\\', '0']
  else if isUnprintable c then '\\' :: 'u' :: '\x7b' :: (hexChars c.toNat ++ ['\x7d'])
  else [c]

/-! ## §2. Whole texts. -/

/-- A text between double quotes. -/
def quoted (s : String) : String :=
  String.ofList ('"' :: (s.toList.flatMap quotedChar ++ ['"']))

end GifEdit.Text
