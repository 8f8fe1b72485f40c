import Facade.Batch.State
import Facade.Batch.Workers
import Facade.Scala.Wrapper

/-!
This module contains the generation of all wrappers of a batch. A class that cannot get a wrapper
leaves the catalog, and the classes that use it are tried again without it, until no more classes
leave.
-/

namespace Facade.Batch

open Data Host Scala

/-- A batch whose classes are all in its catalog, with the classes that have failed before. -/
structure Generator where
  classes : List HostClass
  catalog : Catalog
  failures : List Failure
  /-- The number of workers. Zero stands for as many as there are processors. -/
  jobs : Nat
  processors : Nat := 1

/-- What has become of the classes of a batch. -/
structure Result where
  /-- The files of the classes in the order of the batch. -/
  generated : List (String × GeneratedFile)
  failures : List Failure

def Result.isComplete (result : Result) : Bool :=
  result.failures.isEmpty

/-- What is known about a class so far. -/
inductive Status where
  | pending
  | generated (file : GeneratedFile)
  | failed

def Status.file? : Status → Option GeneratedFile
  | generated file => some file
  | _ => none

def Status.isPending : Status → Bool
  | pending => true
  | _ => false

/-- A batch on the way: its classes with what is known about them. -/
structure Progress where
  classes : List (HostClass × Status)
  catalog : Catalog
  failures : List Failure

namespace Progress

/-- Tries to generate the wrapper of a class. A breach is no outcome of the class but of the batch. -/
def attempt (catalog : Catalog) (c : HostClass) :
    Except Breach (HostClass × Except Refusal GeneratedFile) :=
  match generateFile catalog c with
  | .ok file => .ok (c, .ok file)
  | .error (.refused refusal) => .ok (c, .error refusal)
  | .error (.broken breach) => .error breach

def pendingClasses (progress : Progress) : List HostClass :=
  (progress.classes.filter (·.2.isPending)).map Prod.fst

def failuresOf (outcomes : List (HostClass × Except Refusal GeneratedFile)) : List Failure :=
  outcomes.filterMap fun (c, outcome) =>
    match outcome with
    | .ok _ => none
    | .error refusal => some ⟨c.name, refusal⟩

def statusOf : Except Refusal GeneratedFile → Status
  | .ok file => .generated file
  | .error _ => .failed

/-- The classes with the outcomes of the pending ones, in the same order, put in. -/
def settle : List (HostClass × Status) → List (HostClass × Except Refusal GeneratedFile) →
    List (HostClass × Status)
  | [], _ => []
  | (c, .pending) :: classes, (_, outcome) :: outcomes =>
    (c, statusOf outcome) :: settle classes outcomes
  | entry :: classes, outcomes => entry :: settle classes outcomes

/-- A class that has a file is tried again if it uses a class that has failed. -/
def reopen (dropped : List String) : HostClass × Status → HostClass × Status
  | (c, .generated file) =>
    if dropped.any c.references then (c, .pending) else (c, .generated file)
  | entry => entry

/-- The batch after the outcomes of its pending classes. Those that failed leave the catalog. -/
def advance (progress : Progress) (outcomes : List (HostClass × Except Refusal GeneratedFile)) :
    Progress :=
  let failures := failuresOf outcomes
  let dropped := failures.map Failure.className
  {
    classes := (settle progress.classes outcomes).map (reopen dropped)
    catalog := dropped.foldl (fun catalog name => catalog.erase name) progress.catalog
    failures := progress.failures ++ failures
  }

def step (workers : Nat) (progress : Progress) : Except Breach Progress := do
  -- a class that fails is in the catalog to the end of the step; what uses it is tried again then
  return progress.advance (← runPool workers (attempt progress.catalog) progress.pendingClasses)

/-- Steps until nothing is pending. `fuel` bounds the steps: in all but the last, a class fails. -/
def run (workers : Nat) : (fuel : Nat) → Progress → Except Breach Progress
  | 0, progress => .ok progress
  | fuel + 1, progress =>
    if progress.pendingClasses.isEmpty then .ok progress
    else do run workers fuel (← progress.step workers)

/-- An ordered dictionary with a value under a key, which keeps the place that the key has. -/
def put (key : String) (value : α) : List (String × α) → List (String × α)
  | [] => [(key, value)]
  | (k, v) :: rest => if k = key then (k, value) :: rest else (k, v) :: put key value rest

def files (progress : Progress) : List (String × GeneratedFile) :=
  -- the first class of a name keeps its place, and the last one has the file
  let found := progress.classes.filterMap fun (c, status) => status.file?.map fun file => (c.name, file)
  found.foldl (fun files (name, file) => put name file files) []

end Progress

namespace Generator

def start (g : Generator) : Progress where
  classes := g.classes.map fun c => (c, .pending)
  catalog := g.catalog
  failures := g.failures

def generate (g : Generator) : Except Breach Result := do
  let workers := workerCount g.jobs g.processors
  -- every step but the last one fails a class for good, so the fuel is enough
  let progress ← g.start.run workers (g.classes.length + 1)
  return { generated := progress.files, failures := progress.failures }

def ofCatalog (classes : List HostClass) (catalog : Catalog) (failures : List Failure)
    (jobs : Nat) : Generator :=
  let (catalog, rejected) := catalog.rejectNames isUnavailable
  {
    classes := classes.filter fun c => catalog.has c.name
    catalog
    failures := failures ++ rejected
    jobs
  }

def ofState (state : State) : Except Trouble Generator := do
  let (classes, state) ← state.takeClasses
  let (catalog, state) ← state.takeCatalog
  return ofCatalog classes catalog state.failures state.settings.generator.jobs

def withJobs (jobs : Option Nat) (g : Generator) : Generator :=
  { g with jobs := jobs.getD g.jobs }

end Generator

end Facade.Batch
