/-
  GifEdit.Json.Break
  ──────────────────
  **WHAT IS WRONG WHERE A TREE BREAKS.**

  The same break is named differently by those who come upon it:

      reading   the value is wanted; everything about it is checked
      skipping  the value is of no interest; only the grammar is checked
      keeping   the value is read as a whole, for later; its depth is bounded

  Each walks a tree in the order of its text and gives the first fault, if there
  is one.
-/
import GifEdit.Json.Reader

namespace GifEdit.Json

/-! ## §1. Where a value should start. -/

/-- What is wrong with a text that was to start with a value. -/
def valueFault (rest : List Char) : Fault :=
  match readLeaf rest with
  | .error fault => fault
  | .ok _ => .noValue

/-- What is wrong with a text in which a value was to be skipped.  Numbers are told to
be wrong even where they only end too early. -/
def skippedValueFault (rest : List Char) : Fault :=
  match rest with
  | '"' :: cs =>
      match readString cs with
      | .cut _ broken => broken
      | _ => .noValue
  | '-' :: _ => .noNumber
  | c :: _ => if c.isDigit then .noNumber else valueFault rest
  | [] => .endOfValue

/-! ## §2. Where an item or an entry should follow. -/

/-- What is wrong behind the last item that was read of an array. -/
def Ending.itemFault? : Ending → Option Fault
  | .closed => none
  | .broken [] => some .endOfList
  | .broken (',' :: _) => some .trailingComma
  | .broken _ => some .noListEnd

/-- What is wrong behind the last item of an array that was wanted. -/
def Ending.surplusFault? : Ending → Option Fault
  | .closed => none
  | .broken [] => some .endOfList
  | .broken (',' :: _) => some .trailingComma
  | .broken _ => some .trailingText

/-- What is wrong behind the last item that was skipped of an array. -/
def Ending.skippedItemFault? : Ending → Option Fault
  | .closed => none
  | .broken [] => some .endOfList
  | .broken (',' :: _) => some .noValue
  | .broken _ => some .noListEnd

/-- What is wrong with a text that was to start with a key. -/
def keyFault : List Char → Fault
  | '"' :: cs => valueFault ('"' :: cs)
  | _ => .noKey

/-- What is wrong with a text in which a key was to be skipped. -/
def skippedKeyFault : List Char → Fault
  | '"' :: cs => skippedValueFault ('"' :: cs)
  | [] => .endOfObject
  | _ => .noKey

/-- What is wrong behind the last entry that was read of an object; the flag says that
there is none before. -/
def Ending.entryFault? (first : Bool) : Ending → Option Fault
  | .closed => none
  | .broken [] => some .endOfObject
  | .broken (c :: rest) =>
      if first then some (keyFault (c :: rest))
      else if c = ',' then
        match skipBlanks rest with
        | [] => some .endOfValue
        | '}' :: _ => some .trailingComma
        | rest => some (keyFault rest)
      else some .noObjectEnd

/-- What is wrong behind the last entry that was skipped of an object. -/
def Ending.skippedEntryFault? (first : Bool) : Ending → Option Fault
  | .closed => none
  | .broken [] => some .endOfObject
  | .broken (c :: rest) =>
      if first then some (skippedKeyFault (c :: rest))
      else if c = ',' then some (skippedKeyFault (skipBlanks rest))
      else some .noObjectEnd

/-! ## §3. Whole values. -/

mutual

/-- The first fault of a value that is skipped. -/
def skippedFault? : Json → Option Fault
  | .null | .boolean _ | .number _ | .string _ | .unreadable _ => none
  | .array items ending => skippedItemsFault? items <|> ending.skippedItemFault?
  | .object entries ending =>
      skippedEntriesFault? entries <|> ending.skippedEntryFault? entries.isEmpty
  | .cut rest => some (skippedValueFault rest)
  | .stopped fault => some fault

/-- The first fault of items that are skipped. -/
def skippedItemsFault? : List Json → Option Fault
  | [] => none
  | v :: rest => skippedFault? v <|> skippedItemsFault? rest

/-- The first fault of entries that are skipped. -/
def skippedEntriesFault? : List (Key × Json) → Option Fault
  | [] => none
  | (_, v) :: rest => skippedFault? v <|> skippedEntriesFault? rest

end

mutual

/-- The first fault of a value that is kept, with fewer than `depth` brackets open
at a time. -/
def keptFault? (depth : Nat) : Json → Option Fault
  | .null | .boolean _ | .number _ | .string _ => none
  | .array items ending =>
      if depth ≤ 1 then some .tooDeep
      else keptItemsFault? (depth - 1) items <|> ending.itemFault?
  | .object entries ending =>
      if depth ≤ 1 then some .tooDeep
      else keptEntriesFault? (depth - 1) entries <|> ending.entryFault? entries.isEmpty
  | .unreadable fault => some fault
  | .cut rest => some (valueFault rest)
  | .stopped fault => some fault

/-- The first fault of items that are kept. -/
def keptItemsFault? (depth : Nat) : List Json → Option Fault
  | [] => none
  | v :: rest => keptFault? depth v <|> keptItemsFault? depth rest

/-- The first fault of entries that are kept. -/
def keptEntriesFault? (depth : Nat) : List (Key × Json) → Option Fault
  | [] => none
  | (.error fault, _) :: _ => some fault
  | (.ok _, v) :: rest => keptFault? depth v <|> keptEntriesFault? depth rest

end

end GifEdit.Json
