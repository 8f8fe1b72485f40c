import Facade.Command.Help
import Facade.Record.Load
import Facade.Report.Generate
import Facade.Settings.File
import Facade.Settings.Starter

/-!
This module contains the commands: what is done about a request, and how that ends.
-/

namespace Facade.Command

open Batch Files Report

inductive Ending where
  /-- With a report, which may tell of a failure. -/
  | report (lines : List Line) (success : Bool)
  /-- With an error of an input file. -/
  | inputError (error : Input.Error)
  | trouble (cause : Trouble)
  | usageError (error : UsageError)

namespace Ending

/-- The number that a command gives back to the one who called it. -/
def status : Ending → Nat
  | report _ success => if success then 0 else 1
  | inputError _ => 1
  | trouble _ => 1
  | usageError _ => 2

def output : Ending → String
  | report lines _ => Line.renderAll (lines.filter fun l => !l.isProblem)
  | _ => ""

def problems : Ending → String
  | report lines _ => Line.renderAll (lines.filter Line.isProblem)
  | inputError error =>
    let help := (error.help?.map fun help => s!"  help: {help}\n").getD ""
    s!"{error.code}: {error.message}\n" ++ help
  | trouble cause => s!"Error: {cause.message}\n"
  | usageError error => s!"error: {error.message}\n\nFor more information, try '--help'.\n"

def ofLines (lines : List String) : Ending :=
  report (lines.map .plain) true

end Ending

def starterLines (directory path : Path) : Outcome → List String
  | .skipped => [s!"{path} already exists; left untouched (use --force to replace it)"]
  | .unchanged => [s!"{path} is already up to date"]
  | .written =>
    [s!"Created {path}", "", "Next steps:"] ++
      (if directory.isHere then [] else [s!"  cd {directory}"]) ++
      ["  wrapgen check", "  wrapgen generate"]

section

variable {m : Type → Type} [Monad m] [Access m]

def runInit (directory : Path) (inputs : List String) (force : Bool) : m Ending := do
  let starter : Settings.Starter := if inputs.isEmpty then {} else { inputs }
  let path := Settings.Starter.path directory
  match ← write (if force then .replace else .keep) path starter.render with
  | some outcome => return .ofLines (starterLines directory path outcome)
  | none => return .trouble (.unwritable path)

def loadBatch (path : Path) : ExceptT Input.Error m (Settings.File × List Record) := do
  let file ← Settings.File.load path
  return (file, ← Metadata.load file.inputs)

def withBatch (path : Path) (act : Settings.File → List Record → m (Except Trouble Ending)) :
    m Ending := do
  match ← (loadBatch path).run with
  | .error error => return .inputError error
  | .ok (file, records) =>
    match ← act file records with
    | .ok ending => return ending
    | .error cause => return .trouble cause

def runGenerate (path : Path) (output : Option Path) (dryRun visualize : Bool)
    (jobs : Option Nat) (allowPartial : Bool) : m Ending :=
  withBatch path fun file records => ExceptT.run do
    let options := { output := output.getD file.output, dryRun, visualize, jobs }
    let report ← generateBatch file.settings records options
    return .report report.lines (report.isComplete || allowPartial)

def runCheck (path : Path) : m Ending :=
  withBatch path fun file records => ExceptT.run do
    let report ← liftExcept (Report.check file.settings records path)
    return .report report.lines report.isValid

def versionLine : String := "wrapgen 0.1.0"

def Request.run : Request → m Ending
  | .init directory inputs force => runInit directory inputs force
  | .generate path output dryRun visualize jobs allowPartial =>
    runGenerate path output dryRun visualize jobs allowPartial
  | .check path => runCheck path
  | .help topic => return .ofLines [topic.text]
  | .version => return .ofLines [versionLine]

def run (arguments : List String) : m Ending :=
  match Request.parse arguments with
  | .ok request => request.run
  | .error error => return .usageError error

end

end Facade.Command
