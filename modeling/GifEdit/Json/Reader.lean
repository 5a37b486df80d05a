/-
  GifEdit.Json.Reader
  ───────────────────
  **READING JSON TEXTS.**

  The reader works on the characters that remain and returns a tree together with
  what follows it, or with what remains at the place where the text stops being
  JSON.  Fuel bounds the nesting by the length of the text, which no text can exceed.
-/
import GifEdit.Json.Tree
import GifEdit.Decimal.Fixed
import GifEdit.Decimal.Reader

namespace GifEdit.Json

/-! ## §1. Blanks. -/

/-- The four blanks JSON knows. -/
def isBlank (c : Char) : Bool := c = ' ' || c = '\n' || c = '\t' || c = '\r'

/-- The text from its first character that is not a blank. -/
def skipBlanks (cs : List Char) : List Char := cs.dropWhile isBlank

/-! ## §2. Strings. -/

/-- What a text gives when read as the rest of a string. -/
inductive StringRead where
  /-- The characters of the string, and what follows the closing quote. -/
  | text (s : List Char) (rest : List Char)
  /-- A string with half a surrogate pair, and what follows its closing quote. -/
  | unpaired (fault : Fault) (rest : List Char)
  /-- No string: the first fault, and the fault of the grammar, which may come later. -/
  | cut (first broken : Fault)

/-- The value of four hexadecimal digits. -/
def hexValue? (a b c d : Char) : Option Nat :=
  [a, b, c, d].foldl (fun acc h => do
    let n ← acc
    if h.isDigit then some (n * 16 + (h.toNat - '0'.toNat))
    else if 'a' ≤ h && h ≤ 'f' then some (n * 16 + (h.toNat - 'a'.toNat + 10))
    else if 'A' ≤ h && h ≤ 'F' then some (n * 16 + (h.toNat - 'A'.toNat + 10))
    else none) (some 0)

/-- The number at the front of a text, in four hexadecimal digits; a text of fewer than
four bytes ends too early. -/
def readHex (cs : List Char) : Except Fault Nat :=
  match cs with
  | a :: b :: c :: d :: _ =>
      match hexValue? a b c d with
      | some n => .ok n
      | none => .error .badEscape
  | _ => .error (if (String.ofList cs).utf8ByteSize < 4 then .endOfString else .badEscape)

/-- The character a one-letter escape stands for. -/
def escaped? : Char → Option Char
  | '"' => some '"'
  | '\\' => some '\\'
  | '/' => some '/'
  | 'b' => some '\x08'
  | 'f' => some '\x0c'
  | 'n' => some '\n'
  | 'r' => some '\r'
  | 't' => some '\t'
  | _ => none

/-- Puts a character in front of the rest of a string. -/
def StringRead.cons (c : Char) : StringRead → StringRead
  | .text s rest => .text (c :: s) rest
  | r => r

/-- Puts a fault in front of the rest of a string. -/
def StringRead.spoil (fault : Fault) : StringRead → StringRead
  | .text _ rest => .unpaired fault rest
  | .unpaired _ rest => .unpaired fault rest
  | .cut _ broken => .cut fault broken

/-- The first half of a surrogate pair. -/
def isHighSurrogate (n : Nat) : Bool := 0xD800 ≤ n && n < 0xDC00

/-- The second half of a surrogate pair. -/
def isLowSurrogate (n : Nat) : Bool := 0xDC00 ≤ n && n < 0xE000

/-- The second half of a surrogate pair, which must follow the first at once. -/
def readSecondHalf : List Char → Except Fault Nat
  | '\\' :: 'u' :: cs =>
      match readHex cs with
      | .ok n => if isLowSurrogate n then .ok n else .error .unpairedHalf
      | .error fault => .error fault
  | [] | ['\\'] => .error .endOfString
  | _ => .error .unfinishedPair

/-- Reads the rest of a string after its opening quote. -/
def readString : List Char → StringRead
  | [] => .cut .endOfString .endOfString
  | '"' :: rest => .text [] rest
  | ['\\'] => .cut .endOfString .endOfString
  | '\\' :: 'u' :: cs =>
      match readHex cs with
      | .error fault => .cut fault fault
      | .ok n =>
          if isLowSurrogate n then (readString (cs.drop 4)).spoil .unpairedHalf
          else if isHighSurrogate n then
            match readSecondHalf (cs.drop 4) with
            | .error fault => (readString (cs.drop 4)).spoil fault
            | .ok m =>
                (readString (cs.drop 10)).cons
                  (Char.ofNat (0x10000 + (n - 0xD800) * 0x400 + (m - 0xDC00)))
          else (readString (cs.drop 4)).cons (Char.ofNat n)
  | '\\' :: c :: rest =>
      match escaped? c with
      | some e => (readString rest).cons e
      | none => .cut .badEscape .badEscape
  | c :: rest =>
      if c.toNat < 0x20 then .cut .controlCharacter .controlCharacter else (readString rest).cons c
termination_by cs => cs.length

/-! ## §3. Numbers. -/

/-- A natural number rounded to 53 significant bits, a half going to the even one. -/
def roundToDouble (n : Nat) : Nat :=
  let unit := Nat.pow 2 (n.log2 - 52)
  Decimal.roundHalfEven n unit * unit

/-- Whether scaling a decimal gives a finite double: whether the product of its digits
and the power of ten, each rounded, is below the midpoint between the largest double
and the power of two that would follow it. -/
def fitsDouble (d : Decimal) : Bool :=
  d.digits = 0 || d.exponent < 0 ||
    (d.exponent ≤ 308 &&
      roundToDouble d.digits * roundToDouble (Nat.pow 10 d.exponent.toNat)
        < Nat.pow 2 1024 - Nat.pow 2 970)

/-- The leaf of a number that is no whole number of 64 bits. -/
def decimalLeaf (d : Decimal) : Json :=
  if fitsDouble d then .number (.decimal d) else .unreadable .numberTooLarge

/-- Appends digits to a number as long as it has at most 64 bits; also the count of
the digits taken. -/
def appendDigits (n : Nat) : List Char → Nat × Nat
  | [] => (n, 0)
  | c :: cs =>
      let next := Decimal.digitsValue n [c]
      if next < Nat.pow 2 64 then
        let (m, taken) := appendDigits next cs
        (m, taken + 1)
      else (n, 0)

/-- The leaf of a number with digits before and after its point and an exponent.
Digits before the point that do not fit raise the exponent, those after it are
dropped. -/
def numberLeaf (negative : Bool) (whole places : List Char) (power : Int) : Json :=
  let (n, taken) := appendDigits 0 whole
  let (m, after) := appendDigits n places
  decimalLeaf ⟨negative, m, power + (whole.length - taken : Nat) - after⟩

/-- The leaf of a number without point and exponent. -/
def wholeLeaf (negative : Bool) (whole : List Char) : Json :=
  let n := Decimal.digitsValue 0 whole
  if negative then
    if 0 < n && n ≤ Nat.pow 2 63 then .number (.whole (-n)) else numberLeaf negative whole [] 0
  else if n < Nat.pow 2 64 then .number (.whole n)
  else numberLeaf negative whole [] 0

/-- The digits at the front of a text, and what follows them. -/
def takeDigits (cs : List Char) : List Char × List Char :=
  (cs.takeWhile Char.isDigit, cs.dropWhile Char.isDigit)

/-- The fault of a number that does not go on with a digit. -/
def noDigit (rest : List Char) : Fault := if rest.isEmpty then .endOfValue else .noNumber

/-- Reads the places after a point, if there is one. -/
def readPlaces : List Char → Except Fault (Option (List Char) × List Char)
  | '.' :: cs =>
      match takeDigits cs with
      | ([], rest) => .error (noDigit rest)
      | (ds, rest) => .ok (some ds, rest)
  | cs => .ok (none, cs)

/-- Reads an exponent, if there is one. -/
def readPower : List Char → Except Fault (Option Int × List Char)
  | c :: cs =>
      if c = 'e' || c = 'E' then
        let (negative, cs) := Decimal.takeSign cs
        match takeDigits cs with
        | ([], rest) => .error (noDigit rest)
        | (ds, rest) =>
            let e : Int := Decimal.digitsValue 0 ds
            .ok (some (if negative then -e else e), rest)
      else .ok (none, c :: cs)
  | [] => .ok (none, [])

/-- Reads a number after its sign. -/
def readNumber (negative : Bool) (cs : List Char) : Except Fault (Json × List Char) :=
  match takeDigits cs with
  | ([], rest) => .error (noDigit rest)
  | ('0' :: _ :: _, _) => .error .noNumber
  | (whole, rest) => do
      let (places, rest) ← readPlaces rest
      let (power, rest) ← readPower rest
      return match places, power with
        | none, none => (wholeLeaf negative whole, rest)
        | _, _ => (numberLeaf negative whole (places.getD []) (power.getD 0), rest)

/-! ## §4. Values. -/

/-- Reads the rest of a literal. -/
def readLiteral (v : Json) : (word : List Char) → List Char → Except Fault (Json × List Char)
  | [], rest => .ok (v, rest)
  | _ :: _, [] => .error .endOfValue
  | w :: word, c :: rest => if w = c then readLiteral v word rest else .error .noLiteral

/-- Reads a value that is neither an array nor an object. -/
def readLeaf : List Char → Except Fault (Json × List Char)
  | [] => .error .endOfValue
  | 'n' :: rest => readLiteral .null ['u', 'l', 'l'] rest
  | 't' :: rest => readLiteral (.boolean true) ['r', 'u', 'e'] rest
  | 'f' :: rest => readLiteral (.boolean false) ['a', 'l', 's', 'e'] rest
  | '"' :: rest =>
      match readString rest with
      | .text s rest => .ok (.string (String.ofList s), rest)
      | .unpaired fault rest => .ok (.unreadable fault, rest)
      | .cut first _ => .error first
  | '-' :: rest => readNumber true rest
  | c :: rest => if c.isDigit then readNumber false (c :: rest) else .error .noValue

/-- What was read, and the text behind it: what follows, or where it broke. -/
abbrev ReadTo (β : Type) := β × Except (List Char) (List Char)

/-- How a part ends that was read this far. -/
def Ending.ofRest : Except (List Char) (List Char) → Ending
  | .ok _ => .closed
  | .error rest => .broken rest

mutual

/-- Reads a value. -/
def readValue : (fuel : Nat) → List Char → ReadTo Json
  | 0, cs => (.cut cs, .error cs)
  | fuel + 1, cs =>
      match skipBlanks cs with
      | '[' :: rest =>
          match skipBlanks rest with
          | ']' :: rest => (.array [] .closed, .ok rest)
          | [] => (.array [] (.broken []), .error [])
          | rest =>
              let (items, rest) := readItems fuel rest
              (.array items (.ofRest rest), rest)
      | '{' :: rest =>
          match skipBlanks rest with
          | '}' :: rest => (.object [] .closed, .ok rest)
          | rest =>
              let (entries, rest) := readEntries fuel rest
              (.object entries (.ofRest rest), rest)
      | cs =>
          match readLeaf cs with
          | .ok (v, rest) => (v, .ok rest)
          | .error _ => (.cut cs, .error cs)

/-- Reads the items of an array up to its closing bracket. -/
def readItems : (fuel : Nat) → List Char → ReadTo (List Json)
  | 0, cs => ([], .error cs)
  | fuel + 1, cs =>
      match readValue fuel cs with
      | (v, .error rest) => ([v], .error rest)
      | (v, .ok rest) =>
          match skipBlanks rest with
          | ']' :: rest => ([v], .ok rest)
          | ',' :: rest =>
              match skipBlanks rest with
              | ']' :: after => ([v], .error (',' :: ']' :: after))
              | rest =>
                  let (items, rest) := readItems fuel rest
                  (v :: items, rest)
          | rest => ([v], .error rest)

/-- Reads the entries of an object up to its closing bracket. -/
def readEntries : (fuel : Nat) → List Char → ReadTo (List (Key × Json))
  | 0, cs => ([], .error cs)
  | fuel + 1, cs =>
      match cs with
      | '"' :: rest =>
          match readString rest with
          | .cut _ _ => ([], .error cs)
          | .text s rest => readEntry fuel (.ok (String.ofList s)) rest
          | .unpaired fault rest => readEntry fuel (.error fault) rest
      | _ => ([], .error cs)

/-- Reads the value of an entry and the entries after it. -/
def readEntry (fuel : Nat) (key : Key) (cs : List Char) : ReadTo (List (Key × Json)) :=
  match fuel with
  | 0 => ([(key, .cut cs)], .error cs)
  | fuel + 1 =>
      match skipBlanks cs with
      | ':' :: rest =>
          match readValue fuel rest with
          | (v, .error rest) => ([(key, v)], .error rest)
          | (v, .ok rest) =>
              match skipBlanks rest with
              | '}' :: rest => ([(key, v)], .ok rest)
              | ',' :: rest =>
                  match readEntries fuel (skipBlanks rest) with
                  | ([], .error rest) => ([(key, v)], .error (',' :: rest))
                  | (entries, rest) => ((key, v) :: entries, rest)
              | rest => ([(key, v)], .error rest)
      | [] => ([(key, .stopped .endOfObject)], .error [])
      | rest => ([(key, .stopped .noColon)], .error rest)

end

/-! ## §5. Whole texts. -/

/-- The tree of a text, and whether nothing but blanks follows it. -/
def readText (s : String) : Json × Bool :=
  let cs := s.toList
  match readValue (2 * cs.length + 2) cs with
  | (v, .error _) => (v, false)
  | (v, .ok rest) => (v, (skipBlanks rest).isEmpty)

end GifEdit.Json
