import Facade.Batch.Notice
import Facade.Catalog
import Facade.Files.Path
import Facade.Record.Basic

/-!
This module contains the state of a batch between its stages, and the troubles for which a batch is
given up.
-/

namespace Facade.Batch

open Host

/-- A trouble for which a whole batch is given up. -/
inductive Trouble where
  | noClasses
  | noCatalog
  | nothingToRegister
  /-- There are notices that are errors. -/
  | errorsFound (count : Nat)
  | unwritable (path : Files.Path)
  | broken (breach : Breach)
  /-- A trouble of a stage or an observer that the batch was given from outside. -/
  | other (message : String)
  /-- What was going on when a trouble came up. -/
  | during (activity : String) (cause : Trouble)
  deriving DecidableEq, Repr

def Trouble.message : Trouble → String
  | noClasses => "classes not set - did the extract phase run?"
  | noCatalog => "registry not set - did the registry phase run?"
  | nothingToRegister => "registry phase needs extracted classes"
  | errorsFound count => s!"Validation failed with {count} error(s)"
  | unwritable path => s!"failed to write {path}"
  | broken breach => breach.message
  | other message => message
  | during activity cause => activity ++ ": " ++ cause.message

/-- A batch between its stages. -/
structure State where
  settings : Settings
  records : List Record
  /-- The classes of the records, once they are known. -/
  classes : Option (List HostClass) := none
  /-- The catalog of the classes, once it is known. -/
  catalog : Option Catalog := none
  failures : List Failure := []
  notices : List Notice := []

namespace State

def noticesOf (severity : Severity) (state : State) : List Notice :=
  state.notices.filter (·.severity == severity)

def hasAny (severity : Severity) (state : State) : Bool :=
  state.notices.any (·.severity == severity)

def addNotice (notice : Notice) (state : State) : State :=
  { state with notices := state.notices ++ [notice] }

def takeClasses (state : State) : Except Trouble (List HostClass × State) :=
  match state.classes with
  | some classes => .ok (classes, { state with classes := none })
  | none => .error .noClasses

def takeCatalog (state : State) : Except Trouble (Catalog × State) :=
  match state.catalog with
  | some catalog => .ok (catalog, { state with catalog := none })
  | none => .error .noCatalog

end State

end Facade.Batch
