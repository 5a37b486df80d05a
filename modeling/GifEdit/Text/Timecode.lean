/-
  GifEdit.Text.Timecode
  ─────────────────────
  **TIMES FOR PEOPLE.**

  Playhead and trim displays count whole minutes and seconds; a span adds its
  length with one place.
-/
import GifEdit.Decimal.Fixed

namespace GifEdit

variable {α : Type} [Scalar α]

/-- The whole seconds of a time; none for negative times and those that are no
numbers. -/
def wholeSeconds (t : α) : Nat :=
  if Scalar.isFinite t && 0 < t then Scalar.wholeUpTo Scalar.doubleWordMax (Scalar.floor t) else 0

/-- A time as `m:ss`. -/
def timeText (t : α) : String :=
  let total := wholeSeconds t
  let seconds := total % 60
  toString (total / 60) ++ ":" ++ (if seconds < 10 then "0" else "") ++ toString seconds

/-- A span as `m:ss - m:ss (n.ns)`. -/
def spanText (start stop : α) : String :=
  timeText start ++ " - " ++ timeText stop ++ " ("
    ++ fixedText 1 (Scalar.max (stop - start) (0 : α)) ++ "s)"

end GifEdit
