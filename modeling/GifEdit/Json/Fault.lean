/-
  GifEdit.Json.Fault
  ──────────────────
  **HOW A TEXT FAILS TO BE JSON.**

  A fault says what was wrong at the place where reading stopped.  Three of them are
  no matter of grammar: a number that no double holds, half a surrogate pair, and
  more brackets open at a time than are kept.  What is skipped does not meet those.
-/
namespace GifEdit.Json

/-- What is wrong with a text that is not JSON. -/
inductive Fault where
  | endOfValue
  | endOfString
  | endOfList
  | endOfObject
  /-- Nothing that starts a value. -/
  | noValue
  /-- A word that starts like a literal and goes on differently. -/
  | noLiteral
  | noNumber
  | noColon
  /-- Neither a comma nor the end of a list. -/
  | noListEnd
  /-- Neither a comma nor the end of an object. -/
  | noObjectEnd
  /-- A key that is no string. -/
  | noKey
  /-- A comma with nothing behind it. -/
  | trailingComma
  /-- Text behind the value. -/
  | trailingText
  | badEscape
  | controlCharacter
  /-- The second half of a surrogate pair without the first. -/
  | unpairedHalf
  /-- The first half of a surrogate pair without the second. -/
  | unfinishedPair
  /-- A number that no double holds. -/
  | numberTooLarge
  /-- Too many brackets open at a time. -/
  | tooDeep
  deriving Repr, DecidableEq

/-- The words for a fault. -/
def Fault.text : Fault → String
  | .endOfValue => "EOF while parsing a value"
  | .endOfString => "EOF while parsing a string"
  | .endOfList => "EOF while parsing a list"
  | .endOfObject => "EOF while parsing an object"
  | .noValue => "expected value"
  | .noLiteral => "expected ident"
  | .noNumber => "invalid number"
  | .noColon => "expected `:`"
  | .noListEnd => "expected `,` or `]`"
  | .noObjectEnd => "expected `,` or `\x7d`"
  | .noKey => "key must be a string"
  | .trailingComma => "trailing comma"
  | .trailingText => "trailing characters"
  | .badEscape => "invalid escape"
  | .controlCharacter => "control character (\\u0000-\\u001F) found while parsing a string"
  | .unpairedHalf => "lone leading surrogate in hex escape"
  | .unfinishedPair => "unexpected end of hex escape"
  | .numberTooLarge => "number out of range"
  | .tooDeep => "recursion limit exceeded"

end GifEdit.Json
