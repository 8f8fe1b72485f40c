import Facade.Batch.Snapshot
import Facade.Report.Check

/-!
This module contains the generation of the wrappers of a batch into a directory, or as a preview,
and a report about it.
-/

namespace Facade.Report

open Batch Files Scala

structure WrittenFile where
  /-- The path from the output directory. -/
  path : Path
  /-- Whether the file was not there with the same content. -/
  changed : Bool
  deriving DecidableEq, Repr

/-- What has come of the wrappers. -/
inductive Product where
  /-- Files, and the directory of the snapshots if there are any. -/
  | files (directory : Path) (files : List WrittenFile) (snapshots : Option Path)
  | preview (files : List GeneratedFile)

/-- A report about the generation of wrappers. -/
structure Generation where
  language : Settings.Language
  warnings : List String
  records : Nat
  product : Product
  failures : List Failure

namespace Generation

def isComplete (report : Generation) : Bool :=
  report.failures.isEmpty

def count (report : Generation) : Nat :=
  match report.product with
  | .files _ files _ => files.length
  | .preview files => files.length

def snapshotLines : Option Path → List Line
  | some path => [.pair "Pipeline snapshots written to" path, .blank]
  | none => []

def writtenLines (files : List WrittenFile) : List Line :=
  let changed := files.filter (·.changed)
  let unchanged := files.length - changed.length
  let changedLines :=
    .heading s!"Generated ({changed.length})" :: changed.map (fun file => .added file.path) ++
      [.blank]
  (if changed.isEmpty then [] else changedLines) ++
    if unchanged = 0 then [] else [.pair "Unchanged" (toString unchanged)]

def productLines : Product → List Line
  | .files directory files snapshots =>
    snapshotLines snapshots ++ writtenLines files ++ [.pair "Output" directory]
  | .preview files =>
    files.flatMap (fun file => [.divider file.path, .plain file.content]) ++
      [.divider "Summary", .plain s!"{files.length} files would be generated"]

def summary (report : Generation) : String :=
  s!"{report.count} of {report.records} classes generated ({report.language.word})"

def lines (report : Generation) : List Line :=
  report.warnings.map .warning ++ productLines report.product ++ failureLines report.failures ++
    [.blank, .plain report.summary]

end Generation

structure Options where
  output : Path
  /-- Whether the wrappers are only shown. -/
  dryRun : Bool := false
  /-- Whether snapshots are written. -/
  visualize : Bool := false
  /-- The number of workers, if it is not that of the settings. -/
  jobs : Option Nat := none

/-- The directory of the snapshots. -/
def Options.snapshots (options : Options) : Path :=
  Path.join options.output ".wrapgen/debug"

section

variable {m : Type → Type} [Monad m] [Access m]

def writeFile (directory : Path) (file : GeneratedFile) : ExceptT Trouble m (Path × Outcome) := do
  let path := Path.join directory file.path
  match ← (write .replace path file.content : m (Option Outcome)) with
  | some outcome => return (path, outcome)
  | none => throw (.unwritable path)

def writeFiles (directory : Path) (result : Result) : ExceptT Trouble m (List (Path × Outcome)) :=
  result.generated.mapM fun (_, file) => writeFile directory file

def deliver (options : Options) (result : Result) : ExceptT Trouble m Product := do
  let files := result.generated.map Prod.snd
  if options.dryRun then return .preview files
  else
    let outcomes ← writeFiles options.output result
    let written := files.zipWith (fun file (_, outcome) => ⟨file.path, outcome != .unchanged⟩) outcomes
    return .files options.output written (if options.visualize then some options.snapshots else none)

def generateBatch (settings : Settings) (records : List Record) (options : Options) :
    ExceptT Trouble m Generation := do
  -- snapshots are written while the stages run, in a preview as well
  let pipeline : Pipeline m := {
    observers := if options.visualize then [Snapshot.filer options.snapshots] else []
  }
  let state ← (pipeline.run settings records).adapt (.during "Pipeline failed")
  let result ← liftExcept (generate state options.jobs)
  let product ← deliver options result
  return {
    language := settings.generator.language
    warnings := noticesOf .warning state
    records := records.length
    product
    failures := result.failures
  }

end

end Facade.Report
