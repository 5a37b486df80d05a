/-
  GifEdit.Main
  ────────────
  **THE PROGRAM.**

  Reads files, has the library answer, prints and writes what it replies.  Nothing is
  decided here.

  This host starts no other programs.  What is asked of the encoder or the prober is
  answered as by a system that cannot start them, so commands that need one report
  that it is not there.
-/
import GifEdit.Command.Arguments
import GifEdit.Command.Readiness
import GifEdit.Config.Codec
import Std.Time.DateTime.Timestamp

namespace GifEdit.Host

/-! ## §1. What the surroundings say. -/

/-- The answer to starting a program. -/
def noPrograms : SystemError := ⟨"Function not implemented", some 38⟩

/-- A system error. -/
def systemError : IO.Error → SystemError
  | .noFileOrDirectory _ code _ | .permissionDenied _ code _ | .inappropriateType _ code _
  | .alreadyExists _ code _ | .invalidArgument _ code _ | .resourceExhausted _ code _ =>
      .ofCode code.toNat
  | .otherError code _ => .ofCode code.toNat
  | _ => .deviceFails

/-- What comes of an action. -/
def outcome {β : Type} (act : IO β) : IO (Except SystemError β) :=
  return (← act.toBaseIO).mapError systemError

/-- The text of a file, if it can be read. -/
def readText (p : Path) : IO (Except SystemError String) := do
  match ← outcome (IO.FS.readBinFile p.text) with
  | .error cause => return .error cause
  | .ok bytes =>
      match String.fromUTF8? bytes with
      | some text => return .ok text
      | none => return .error .noText

/-- Whether a file is there. -/
def isThere (p : Path) : IO Bool :=
  try
    discard (IO.FS.Handle.mk p.text .read)
    return true
  catch _ => return false

/-- The canonical path of a file that is there. -/
def canonical (p : Path) : IO (Option Path) :=
  try return some ⟨(← IO.FS.realPath p.text).toString⟩
  catch _ => return none

/-- The time. -/
def now : IO Timestamp := do
  let nanos := (← Std.Time.Timestamp.now).toNanosecondsSinceUnixEpoch.val
  return ⟨nanos / 1000000000, (nanos % 1000000000).toNat⟩

/-- Where the configuration lies. -/
def standardConfig : IO Path :=
  return configPath (← IO.getEnv "XDG_CONFIG_HOME") (← IO.getEnv "HOME")

/-! ## §2. Answers. -/

/-- The configuration to use: the one that is named, which must be valid, or else the
standard one. -/
def configure : Option Path → IO (Except String (Config Float))
  | some p => do
      match (Config.load (← readText p) : Except Failure (Config Float)) with
      | .ok c => return .ok c
      | .error cause => return .error ("Failed to load config " ++ p.text ++ ": " ++ cause.message)
  | none => return .ok (Config.loadOrDefault (← readText (← standardConfig)))

/-- The reply to a request. -/
def reply (i : Invocation Float) (config : Config Float) : IO (Reply Float) := do
  match i.request with
  | .create a =>
      let clip := probe config.engine.prober a.source (← isThere a.source) (.error noPrograms)
      return newDocument a config clip (← canonical a.source) (← now)
  | .describe document => return GifEdit.describe document (← readText document)
  | .replay a =>
      return replayScript a config (← readText a.document) (← readText a.script) (← now)
  | .plan document asJson => return showPlan document (← readText document) asJson
  | .mask m output => return drawMask m output
  | .render a =>
      let file ← readText a.document
      let sourceExists ← match (a.prepare config file).2 with
        | .ok job => isThere job.source
        | .error _ => pure false
      return exportDocument a config file fun _ =>
        { scene := { sourceExists := sourceExists }
          version := .error noPrograms
          encoder := { scratch := .error noPrograms, run := .error noPrograms } }
  | .check =>
      let path ← match i.config with
        | some path => pure path
        | none => standardConfig
      return checkReadiness ⟨false, false, path, ← isThere path⟩ config

/-- Prints why a command failed; the status is that of a failed program. -/
def complain (reason : String) : IO UInt32 := do
  IO.eprintln ("Error: " ++ reason)
  return 1

/-- Writes a file, and its directory first if it is to be made. -/
def save (f : Saving (CommandError Float)) : IO (Except (CommandError Float) Unit) := do
  let made ← match f.directory with
    | some dir => pure ((← outcome (IO.FS.createDirAll dir.text)).mapError (f.refused dir))
    | none => pure (.ok ())
  match made with
  | .error cause => return .error cause
  | .ok () =>
      return (← outcome (IO.FS.writeBinFile f.path.text ⟨f.content.toArray⟩)).mapError
        (f.refused f.path)

/-- Carries out a reply. -/
def finish (r : Reply Float) : IO UInt32 := do
  IO.print r.printed
  match r.ending with
  | .done => return 0
  | .failed cause => complain cause.message
  | .saving f afterwards =>
      match ← save f with
      | .error cause => complain cause.message
      | .ok () =>
          IO.print afterwards
          return 0

/-- Runs the command that a command line asks for. -/
def run (words : List String) : IO UInt32 := do
  match (Invocation.ofWords words : Except UsageError (Invocation Float)) with
  | .error e =>
      IO.eprintln ("error: " ++ e.message)
      for kind in CommandKind.all do
        IO.eprintln ("  " ++ kind.usage)
      return 2
  | .ok i =>
      match ← configure i.config with
      | .error reason => complain reason
      | .ok config => finish (← reply i config)

end GifEdit.Host

/-- Runs the program on the words of its command line. -/
def main (words : List String) : IO UInt32 := GifEdit.Host.run words
