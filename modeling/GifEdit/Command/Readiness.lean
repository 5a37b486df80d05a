/-
  GifEdit.Command.Readiness
  ─────────────────────────
  **WHETHER EVERYTHING IS IN PLACE.**

  The check asks for both tools and for a valid configuration.  It reports what is
  missing and never fails itself.
-/
import GifEdit.Command.Reply

namespace GifEdit

variable {α : Type} [Scalar α] [Legible α]

/-- What the check finds. -/
structure Readiness where
  encoder : Bool
  prober : Bool
  /-- Where the configuration lies, or would lie. -/
  configPath : Path
  configExists : Bool
  deriving Repr, DecidableEq

/-- A tool that can be run, or cannot. -/
def toolLine (role program : String) (runs : Bool) : String :=
  if runs then "[OK] " ++ role ++ ": " ++ program
  else "[MISSING] " ++ role ++ ": " ++ program ++ " could not be run"

/-- What the configuration is worth; the flag says whether it can be used. -/
def Readiness.configLine (r : Readiness) (config : Config α) : String × Bool :=
  if r.configExists then
    match config.check with
    | .ok () => ("[OK] Config: " ++ r.configPath.text, true)
    | .error e =>
        ("[WARN] Config " ++ r.configPath.text ++ ": " ++ (Failure.config e.message).message, false)
  else ("[OK] Config: built-in defaults (" ++ r.configPath.text ++ " not present)", true)

/-- Export defaults in a row. -/
def ExportDefaults.listing (d : ExportDefaults) : String :=
  toString d.fps ++ "fps, " ++ toString d.width ++ "px, " ++ toString d.colors
    ++ " colors, dither " ++ toString d.dither ++ ", loop " ++ toString d.loopCount

/-- What the check says, line by line. -/
def Readiness.listing (r : Readiness) (config : Config α) : List String :=
  let (configLine, usable) := r.configLine config
  let ready := r.encoder && r.prober && usable
  ["togif System Check",
    String.ofList (List.replicate 50 '='),
    toolLine "Encoder" config.engine.encoder r.encoder,
    toolLine "Prober" config.engine.prober r.prober,
    configLine,
    "     Export defaults: " ++ config.exportDefaults.listing,
    "",
    if ready then "All required tools are available. togif is ready."
    else "Some requirements are missing. See above for fixes."]

/-- Checks the tools and the configuration. -/
def checkReadiness (r : Readiness) (config : Config α) : Reply α :=
  .say (linesText (r.listing config))

end GifEdit
