import Facade.Batch.Pipeline
import Facade.Files.Access
import Facade.Host.Format
import Facade.Json.Writer
import Facade.Settings.Format

/-!
This module contains snapshots: what is known about a batch after one of its stages, and the file
that is written about it.
-/

namespace Facade

open Data

def Refusal.tree (refusal : Refusal) : Tree :=
  .ofEntries <|
    match refusal with
    | flawed member flaw =>
      [("kind", .text "extraction"), ("member", .text member), ("reason", .text flaw.reason)]
    | unresolved member type =>
      [("kind", .text "unresolved_type"), ("member", .text member), ("type_name", .text type)]
    | clash name cause =>
      [("kind", .text "naming_collision"), ("name", .text name), ("reason", .text cause.reason)]

def Failure.tree (failure : Failure) : Tree :=
  .ofEntries [("class", .text failure.className), ("error", failure.refusal.tree)]

namespace Catalog

def Entry.tree (e : Entry) : Tree :=
  .ofEntries [
    ("qualified_name", .text e.className),
    ("wrapper_package", .text e.package),
    ("wrapper_name", .text e.name),
    ("is_enum", .flag e.isEnum)
  ]

def tree (catalog : Catalog) : Tree :=
  .ofEntries [
    ("classes", .ofEntries (catalog.entries.map fun (name, e) => (name, e.tree))),
    ("external_types", Settings.stringsTree catalog.externalTypes)
  ]

end Catalog

namespace Batch

open Files Host

def Notice.tree (n : Notice) : Tree :=
  .ofEntries [
    ("severity", .text n.severity.word),
    ("phase", .text n.stage),
    ("message", .text n.message),
    ("location", .ofString? n.location)
  ]

/-- A batch after one of its stages. -/
structure Snapshot where
  stage : String
  classes : Option (List HostClass)
  catalog : Option Catalog
  failures : List Failure
  notices : List Notice

namespace Snapshot

def ofState (stage : String) (state : State) : Snapshot :=
  {
    stage
    classes := state.classes
    catalog := state.catalog
    failures := state.failures
    notices := state.notices
  }

/-- The fields of a snapshot. What is not known yet has none. -/
def tree (s : Snapshot) : Tree :=
  let classes := s.classes.map fun classes => .ofItems (classes.map HostClass.shape.write)
  .ofEntries <|
    [("phase", .text s.stage)] ++ classes.toList.map ("classes", ·) ++
    s.catalog.toList.map (fun catalog => ("registry", catalog.tree)) ++
    [
      ("failures", .ofItems (s.failures.map Failure.tree)),
      ("diagnostics", .ofItems (s.notices.map Notice.tree))
    ]

/-- The path of the file for a snapshot in a directory. -/
def path (directory : Path) (s : Snapshot) : Path :=
  Path.join directory (s.stage ++ ".json")

section

variable {m : Type → Type} [Monad m]

def write [Access m] (directory : Path) (s : Snapshot) : ExceptT Trouble m Unit := do
  let path := s.path directory
  let ready ← (Access.makeDirectories directory : m Bool)
  if !ready then throw (.unwritable path)
  let written ← (Access.writeText path (Json.write s.tree) : m Bool)
  if !written then throw (.unwritable path)

def observerName : String := "snapshot"

def filer [Access m] (directory : Path) : Observer m where
  name := observerName
  after stage state := do
    write directory (ofState stage state)
    return state

def collector [MonadStateOf (List Snapshot) m] : Observer m where
  name := observerName
  after stage state := do
    modify (· ++ [ofState stage state])
    return state

end

end Snapshot

end Batch

end Facade
