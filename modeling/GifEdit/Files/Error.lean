/-
  GifEdit.Files.Error
  ───────────────────
  **WHY A SYSTEM REFUSES.**

  A refused operation on a file, or on a program, has a reason in words and usually
  the number the system knows it by.
-/
namespace GifEdit

/-- Why an operation on a file failed, with the number the system gives it. -/
structure SystemError where
  reason : String
  code : Option Nat
  deriving Repr, DecidableEq

namespace SystemError

/-- There is no such file or directory. -/
def notFound : SystemError := ⟨"No such file or directory", some 2⟩

/-- The file is there but may not be used like this. -/
def permissionDenied : SystemError := ⟨"Permission denied", some 13⟩

/-- Something is there already. -/
def alreadyThere : SystemError := ⟨"File exists", some 17⟩

/-- A path leads through a file. -/
def notDirectory : SystemError := ⟨"Not a directory", some 20⟩

/-- A directory stands where a file is asked for. -/
def isDirectory : SystemError := ⟨"Is a directory", some 21⟩

/-- A path or one of its names is too long. -/
def nameTooLong : SystemError := ⟨"File name too long", some 36⟩

/-- The path of a file holds the character that ends texts. -/
def endInPath : SystemError := ⟨"file name contained an unexpected NUL byte", none⟩

/-- The name of a program holds the character that ends texts. -/
def endInProgram : SystemError := ⟨"nul byte found in provided data", none⟩

/-- The bytes of a file are no text. -/
def noText : SystemError := ⟨"stream did not contain valid UTF-8", none⟩

/-- The device fails. -/
def deviceFails : SystemError := ⟨"Input/output error", some 5⟩

/-- The device is full. -/
def deviceFull : SystemError := ⟨"No space left on device", some 28⟩

/-- The errors that have a number. -/
def numbered : List SystemError :=
  [notFound, deviceFails, permissionDenied, alreadyThere, notDirectory, isDirectory, deviceFull,
    nameTooLong]

/-- The error a number stands for. -/
def ofCode (code : Nat) : SystemError :=
  (numbered.find? fun e => e.code == some code).getD
    ⟨"Unknown error " ++ toString code, some code⟩

/-- The message of a system error. -/
def message (e : SystemError) : String :=
  match e.code with
  | some code => e.reason ++ " (os error " ++ toString code ++ ")"
  | none => e.reason

end SystemError
end GifEdit
