/-
  GifEdit.Text.Timestamp
  ──────────────────────
  **POINTS IN TIME, AS RFC 3339 WRITES THEM.**

  A timestamp counts seconds and nanoseconds from the start of 1970 in universal
  time.  It is read with any offset and written with none: a `Z`, and as many
  triples of fraction digits as are needed.

  Reading is lenient about blanks around the separators, takes a blank for the `T`,
  any spelling of the offset with an optional colon, and `UTC` for `Z`.  A leap
  second is the second before it with a billion nanoseconds more.
-/
import GifEdit.Text.Blank
import GifEdit.Decimal.Reader

namespace GifEdit

/-- Seconds since the start of 1970, and nanoseconds. -/
structure Timestamp where
  seconds : Int
  nanos : Nat
  deriving Repr, DecidableEq, Inhabited

namespace Timestamp

/-! ## §1. The calendar.

Years are counted from March, so that the leap day is the last of its year. -/

/-- Days from the start of 1970 to a date. -/
def daysOfDate (year month day : Int) : Int :=
  let y := if month ≤ 2 then year - 1 else year
  let era := Int.fdiv y 400
  let yearOfEra := y - era * 400
  let shifted := if month ≤ 2 then month + 9 else month - 3
  let dayOfYear := Int.fdiv (153 * shifted + 2) 5 + day - 1
  let dayOfEra := yearOfEra * 365 + Int.fdiv yearOfEra 4 - Int.fdiv yearOfEra 100 + dayOfYear
  era * 146097 + dayOfEra - 719468

/-- Year, month and day of a number of days from the start of 1970. -/
def dateOfDays (days : Int) : Int × Int × Int :=
  let z := days + 719468
  let era := Int.fdiv z 146097
  let doe := z - era * 146097
  let yoe := Int.fdiv (doe - Int.fdiv doe 1460 + Int.fdiv doe 36524 - Int.fdiv doe 146096) 365
  let doy := doe - (365 * yoe + Int.fdiv yoe 4 - Int.fdiv yoe 100)
  let shifted := Int.fdiv (5 * doy + 2) 153
  let day := doy - Int.fdiv (153 * shifted + 2) 5 + 1
  let month := if shifted < 10 then shifted + 3 else shifted - 9
  (yoe + era * 400 + (if month ≤ 2 then 1 else 0), month, day)

/-- Whether the date exists. -/
def isDate (year month day : Int) : Bool :=
  1 ≤ month && month ≤ 12 && 1 ≤ day && dateOfDays (daysOfDate year month day) == (year, month, day)

/-! ## §2. Reading. -/

/-- Why a text is no timestamp. -/
inductive Fault where
  | outOfRange
  | impossible
  | invalid
  | tooShort
  | tooLong
  deriving Repr, DecidableEq

/-- The message of a fault. -/
def Fault.message : Fault → String
  | .outOfRange => "input is out of range"
  | .impossible => "no possible date and time matching input"
  | .invalid => "input contains invalid characters"
  | .tooShort => "premature end of input"
  | .tooLong => "trailing input"

/-- A number of one to `most` digits. -/
def readNumber (most : Nat) (cs : List Char) : Except Fault (Int × List Char) :=
  let ds := (cs.take most).takeWhile Char.isDigit
  match cs, ds with
  | [], _ => .error .tooShort
  | _, [] => .error .invalid
  | _, _ =>
      let n := Decimal.digitsValue 0 ds
      if n < Nat.pow 2 63 then .ok (n, cs.drop ds.length) else .error .outOfRange

/-- A number of at most two digits, with blanks before it, within bounds. -/
def readPart (low high : Int) (cs : List Char) : Except Fault (Int × List Char) := do
  let (n, rest) ← readNumber 2 (Text.trimFront cs)
  if low ≤ n && n ≤ high then .ok (n, rest) else .error .outOfRange

/-- A year: four digits at most, any number of them after a sign. -/
def readYear (cs : List Char) : Except Fault (Int × List Char) :=
  match Text.trimFront cs with
  | '-' :: rest => do
      let (n, rest) ← readNumber rest.length rest
      return (-n, rest)
  | '+' :: rest => readNumber rest.length rest
  | rest => readNumber 4 rest

/-- A separator, with blanks before it. -/
def readMark (mark : Char) (cs : List Char) : Except Fault (Unit × List Char) :=
  match Text.trimFront cs with
  | [] => .error .tooShort
  | c :: rest => if c = mark then .ok ((), rest) else .error .invalid

/-- Nanoseconds after a point, if there is one; digits beyond the ninth are dropped. -/
def readFraction : List Char → Except Fault (Nat × List Char)
  | '.' :: cs => do
      let (n, rest) ← readNumber 9 cs
      let size := cs.length - rest.length
      return (n.toNat * Nat.pow 10 (9 - size), rest.dropWhile Char.isDigit)
  | cs => .ok (0, cs)

/-- Two digits. -/
def readPair : List Char → Except Fault ((Nat × Nat) × List Char)
  | [] => .error .tooShort
  | [c] => if c.utf8Size < 2 then .error .tooShort else .error .invalid
  | a :: b :: rest =>
      if a.isDigit && b.isDigit then
        .ok ((a.toNat - '0'.toNat, b.toNat - '0'.toNat), rest)
      else .error .invalid

/-- Seconds east of universal time after the sign. -/
def readOffset (sign : Int) (cs : List Char) : Except Fault (Int × List Char) := do
  let ((a, b), rest) ← readPair cs
  let rest := rest.dropWhile fun c => c = ':' || Text.isBlank c
  let ((c, d), rest) ← readPair rest
  if 6 ≤ c then .error .outOfRange
  else
    let minutes : Nat := (10 * a + b) * 60 + (10 * c + d)
    return (sign * 60 * minutes, rest)

/-- The zone: `Z`, `UTC` or an offset. -/
def readZone (cs : List Char) : Except Fault (Int × List Char) :=
  if Decimal.sameLetters (cs.take 3) ['U', 'T', 'C'] then .ok (0, cs.drop 3)
  else
    match cs with
    | 'Z' :: rest | 'z' :: rest => .ok (0, rest)
    | '+' :: rest => readOffset 1 rest
    | '-' :: rest | '−' :: rest => readOffset (-1) rest
    | [] => .error .tooShort
    | _ => .error .invalid

/-- The mark between date and time. -/
def readTimeMark : List Char → Except Fault (Unit × List Char)
  | [] => .error .tooShort
  | c :: rest => if c = 'T' || c = 't' || c = ' ' then .ok ((), rest) else .error .invalid

/-- Whether timestamps reach a year. -/
def isYear (year : Int) : Bool := -262143 ≤ year && year ≤ 262142

/-- The timestamp a text stands for.  Both the date as written and the date in universal
time have to be within reach. -/
def ofChars (cs : List Char) : Except Fault Timestamp := do
  let (year, cs) ← readYear cs
  if year < -2147483648 || 2147483647 < year then .error .outOfRange
  let (_, cs) ← readMark '-' cs
  let (month, cs) ← readPart 1 12 cs
  let (_, cs) ← readMark '-' cs
  let (day, cs) ← readPart 1 31 cs
  let (_, cs) ← readTimeMark cs
  let (hour, cs) ← readPart 0 23 cs
  let (_, cs) ← readMark ':' cs
  let (minute, cs) ← readPart 0 59 cs
  let (_, cs) ← readMark ':' cs
  let (second, cs) ← readPart 0 60 cs
  let (nanos, cs) ← readFraction cs
  let (offset, cs) ← readZone (Text.trimFront cs)
  if !(Text.trimFront cs).isEmpty then .error .tooLong
  if !isDate year month day || !isYear year || 86400 ≤ offset.natAbs then .error .outOfRange
  let leap := second == 60
  let seconds := daysOfDate year month day * 86400 + hour * 3600 + minute * 60
    + (if leap then 59 else second) - offset
  if !isYear (dateOfDays (Int.fdiv seconds 86400)).1 then .error .impossible
  return ⟨seconds, nanos + (if leap then 1000000000 else 0)⟩

/-! ## §3. Writing. -/

/-- A number with at least `width` digits. -/
def padded (width n : Nat) : List Char :=
  let ds := Nat.toDigits 10 n
  List.replicate (width - ds.length) '0' ++ ds

/-- The fewest triples of digits that hold the nanoseconds. -/
def fractionChars (nanos : Nat) : List Char :=
  if nanos = 0 then []
  else if nanos % 1000000 = 0 then '.' :: padded 3 (nanos / 1000000)
  else if nanos % 1000 = 0 then '.' :: padded 6 (nanos / 1000)
  else '.' :: padded 9 nanos

/-- A year; one that does not have four digits carries its sign. -/
def yearChars (year : Int) : List Char :=
  if 0 ≤ year && year ≤ 9999 then padded 4 year.toNat
  else (if year < 0 then '-' else '+') :: padded 4 year.natAbs

/-- Date and time with a mark between them. -/
def dateTimeChars (mark : Char) (t : Timestamp) : List Char :=
  let leap := 1000000000 ≤ t.nanos
  let days := Int.fdiv t.seconds 86400
  let rest := (t.seconds - days * 86400).toNat
  let (year, month, day) := dateOfDays days
  yearChars year ++ '-' :: padded 2 month.toNat ++ '-' :: padded 2 day.toNat
    ++ mark :: padded 2 (rest / 3600) ++ ':' :: padded 2 (rest / 60 % 60)
    ++ ':' :: padded 2 (rest % 60 + (if leap then 1 else 0))
    ++ fractionChars (if leap then t.nanos - 1000000000 else t.nanos)

/-- A timestamp as files hold it. -/
def text (t : Timestamp) : String := String.ofList (dateTimeChars 'T' t ++ ['Z'])

/-- A timestamp as listings show it. -/
def title (t : Timestamp) : String := String.ofList (dateTimeChars ' ' t) ++ " UTC"

end Timestamp
end GifEdit
