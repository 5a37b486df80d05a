/-
  GifEdit.Json.Writer
  ───────────────────
  **WRITING JSON TEXTS.**

  Two layouts of one format: compact, and indented by two blanks a level for files
  that people read.  Numbers that are no whole numbers keep a point or an exponent,
  so that they are read back as such.
-/
import GifEdit.Json.Tree
import GifEdit.Decimal.Notation

namespace GifEdit.Json

/-! ## §1. Leaves. -/

/-- How a character is written in a string. -/
def writeChar (c : Char) : List Char :=
  if c = '"' then ['\\', '"']
  else if c = '\\' then ['\\', '\\']
  else if c = '\n' then ['\\', 'n']
  else if c = '\r' then ['\\', 'r']
  else if c = '\t' then ['\\', 't']
  else if c = '\x08' then ['\\', 'b']
  else if c = '\x0c' then ['\\', 'f']
  else if c.toNat < 0x20 then
    ['\\', 'u', '0', '0', if c.toNat < 0x10 then '0' else '1', Nat.digitChar (c.toNat % 16)]
  else [c]

/-- A string between quotes. -/
def writeString (s : String) : List Char := '"' :: (s.toList.flatMap writeChar ++ ['"'])

/-- A number. -/
def writeNumeral : Numeral → List Char
  | .whole n => if n < 0 then '-' :: Decimal.digitChars n.natAbs else Decimal.digitChars n.natAbs
  | .decimal d => Decimal.lay Decimal.json d

/-- The key of an entry; a key without a text is written as an empty one. -/
def writeKey (key : Key) : List Char := writeString (key.toOption.getD "")

/-! ## §2. The compact layout. -/

mutual

/-- A value without any blanks. -/
def compact : Json → List Char
  | .null | .unreadable _ | .cut _ | .stopped _ => "null".toList
  | .boolean b => if b then "true".toList else "false".toList
  | .number n => writeNumeral n
  | .string s => writeString s
  | .array [] _ => ['[', ']']
  | .array (v :: rest) _ => '[' :: (compact v ++ (compactItems rest ++ [']']))
  | .object [] _ => ['\x7b', '\x7d']
  | .object ((key, v) :: rest) _ =>
      '\x7b' :: (writeKey key ++ ':' :: (compact v ++ (compactEntries rest ++ ['\x7d'])))

/-- Items after the first. -/
def compactItems : List Json → List Char
  | [] => []
  | v :: rest => ',' :: (compact v ++ compactItems rest)

/-- Entries after the first. -/
def compactEntries : List (Key × Json) → List Char
  | [] => []
  | (key, v) :: rest => ',' :: (writeKey key ++ ':' :: (compact v ++ compactEntries rest))

end

/-! ## §3. The indented layout. -/

/-- A line break and the blanks of a level. -/
def newLine (level : Nat) : List Char := '\n' :: List.replicate (2 * level) ' '

mutual

/-- A value with one item or entry a line; empty brackets stay together. -/
def indented (level : Nat) : Json → List Char
  | .array (v :: rest) _ =>
      '[' :: (newLine (level + 1) ++ indented (level + 1) v ++ indentedItems (level + 1) rest
        ++ newLine level ++ [']'])
  | .object ((key, v) :: rest) _ =>
      '\x7b' :: (newLine (level + 1) ++ writeKey key ++ ':' :: ' ' :: indented (level + 1) v
        ++ indentedEntries (level + 1) rest ++ newLine level ++ ['\x7d'])
  | .array [] ending => compact (.array [] ending)
  | .object [] ending => compact (.object [] ending)
  | .boolean b => compact (.boolean b)
  | .number n => compact (.number n)
  | .string s => compact (.string s)
  | .null | .unreadable _ | .cut _ | .stopped _ => compact .null

/-- Items after the first. -/
def indentedItems (level : Nat) : List Json → List Char
  | [] => []
  | v :: rest => ',' :: (newLine level ++ indented level v ++ indentedItems level rest)

/-- Entries after the first. -/
def indentedEntries (level : Nat) : List (Key × Json) → List Char
  | [] => []
  | (key, v) :: rest =>
      ',' :: (newLine level ++ writeKey key ++ ':' :: ' ' :: indented level v
        ++ indentedEntries level rest)

end

/-- The compact text of a value. -/
def compactText (v : Json) : String := String.ofList v.compact

/-- The indented text of a value. -/
def indentedText (v : Json) : String := String.ofList (indented 0 v)

end GifEdit.Json
