/-
  GifEdit.Text.Shell
  ──────────────────
  **ARGUMENTS AS A COMMAND LINE.**

  A command is shown to people with its arguments as words: one with a blank, a
  bracket, a semicolon or a quote stands between single quotes.  Nothing is special
  there but the quote itself, which is written outside of them.

  What a shell makes of such a line is read beside it.  The reader knows blanks,
  quotes and escapes; it gives up where a shell would do more than split the line into
  words: at operators, expansions, patterns and comments.  It also gives up on a line
  that is not complete: one that ends between quotes, or behind a backslash.  Keywords
  and assignments, which only the front of a command can hold, are not looked for.
-/
import GifEdit.Text.Blank

namespace GifEdit.Text

/-! ## §1. Writing. -/

/-- Whether a character calls for quotes. -/
def callsForQuotes (c : Char) : Bool := isBlank c || ['[', ']', ';', '\'', '"'].contains c

/-- How a character is written between single quotes. -/
def singleQuotedChar (c : Char) : List Char :=
  if c = '\'' then ['\'', '\\', '\'', '\''] else [c]

/-- An argument as a word of a command line. -/
def shellWord (arg : List Char) : List Char :=
  if arg.any callsForQuotes then '\'' :: (arg.flatMap singleQuotedChar ++ ['\'']) else arg

/-- Arguments as a command line, with a blank between any two. -/
def shellLine (args : List String) : String :=
  " ".intercalate (args.map fun arg => String.ofList (shellWord arg.toList))

/-! ## §2. Reading. -/

/-- What a character of a line stands in. -/
inductive Quoting where
  | bare
  | single
  | double
  deriving Repr, DecidableEq, Inhabited

/-- Characters that never stand for themselves outside quotes, in a word or at its
start: operators, expansions and patterns. -/
def isActive (c : Char) : Bool :=
  ['|', '&', ';', '<', '>', '(', ')', '$', '\x60', '*', '?', '[', '\n'].contains c

/-- Characters that start something other than a word: a comment or a home directory. -/
def isActiveAtStart (c : Char) : Bool := c = '#' || c = '~'

/-- The words of a line, read from inside a word or, with none, between words.  A word
is held reversed. -/
def readWords : Quoting → Option (List Char) → List Char → Option (List (List Char))
  | .bare, word, [] => some (word.toList.map List.reverse)
  | .single, _, [] | .double, _, [] => none
  | .single, word, c :: cs =>
      if c = '\'' then readWords .bare word cs
      else readWords .single (some (c :: word.getD [])) cs
  | .double, word, '\\' :: c :: cs =>
      if ['$', '\x60', '"', '\\'].contains c then
        readWords .double (some (c :: word.getD [])) cs
      else if c = '\n' then readWords .double word cs
      else readWords .double (some (c :: '\\' :: word.getD [])) cs
  | .double, word, c :: cs =>
      if c = '"' then readWords .bare word cs
      else if c = '$' || c = '\x60' then none
      else readWords .double (some (c :: word.getD [])) cs
  | .bare, _, ['\\'] => none
  | .bare, word, '\\' :: c :: cs =>
      if c = '\n' then readWords .bare word cs
      else readWords .bare (some (c :: word.getD [])) cs
  | .bare, word, c :: cs =>
      if c = ' ' || c = '\t' then
        (readWords .bare none cs).map fun words => word.toList.map List.reverse ++ words
      else if c = '\'' then readWords .single (some (word.getD [])) cs
      else if c = '"' then readWords .double (some (word.getD [])) cs
      else if isActive c || (word.isNone && isActiveAtStart c) then none
      else readWords .bare (some (c :: word.getD [])) cs

/-- The words that a shell reads in a line, if it does nothing else. -/
def shellWords? (line : String) : Option (List String) :=
  (readWords .bare none line.toList).map fun words => words.map String.ofList

end GifEdit.Text
