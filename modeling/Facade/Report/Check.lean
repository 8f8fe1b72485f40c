import Facade.Batch.Generate
import Facade.Batch.Pipeline
import Facade.Report.Line

/-!
This module contains the check of a batch: all that generating its wrappers does but for writing
them, and a report about it.
-/

namespace Facade.Report

open Batch

def describe (n : Notice) : String :=
  match n.location with
  | some location => n.message ++ "\n  --> " ++ location
  | none => n.message

def failureLines (failures : List Failure) : List Line :=
  if failures.isEmpty then []
  else
    [.blank, .heading s!"Failed ({failures.length})"] ++
      failures.map fun f => .failed (f.className ++ " [" ++ f.refusal.kind ++ "]") f.refusal.message

/-- A report about a batch that is only checked. -/
structure Check where
  settingsPath : Files.Path
  errors : List String
  warnings : List String
  infos : List String
  /-- The classes that get a wrapper, with the paths of its files. -/
  classes : List (String × Files.Path)
  failures : List Failure

namespace Check

/-- Whether there is nothing wrong with the batch. -/
def isValid (report : Check) : Bool :=
  report.errors.isEmpty && report.failures.isEmpty

def noticeLines (report : Check) : List Line :=
  let lines :=
    report.errors.map .error ++ report.warnings.map .warning ++
      report.infos.map fun info => .plain ("info: " ++ info)
  if lines.isEmpty then [] else lines ++ [.blank]

def classLines (report : Check) : List Line :=
  if report.classes.isEmpty then []
  else
    .heading s!"Classes ({report.classes.length})" ::
      report.classes.map fun (name, path) => .item (name ++ " -> " ++ path)

def lines (report : Check) : List Line :=
  report.noticeLines ++ report.classLines ++ failureLines report.failures ++
    if report.isValid then [.blank, .plain s!"✓ {report.settingsPath} is valid"] else []

end Check

def noticesOf (severity : Severity) (state : State) : List String :=
  (state.noticesOf severity).map describe

def generate (state : State) (jobs : Option Nat) : Except Trouble Result := do
  let generator ← Generator.ofState state
  (generator.withJobs jobs).generate.mapError fun breach =>
    .during "Failed to generate code" (.broken breach)

def check (settings : Settings) (records : List Record) (settingsPath : Files.Path) :
    Except Trouble Check := do
  let pipeline : Pipeline Id := {}
  let state ← ((pipeline.run settings records).run).mapError (.during "Validation failed")
  let result ← generate state none
  return {
    settingsPath
    errors := noticesOf .error state
    warnings := noticesOf .warning state
    infos := noticesOf .info state
    classes := result.generated.map fun (name, file) => (name, file.path)
    failures := result.failures
  }

end Facade.Report
