import Facade.Batch.Notice
import Facade.Record.Basic
import Facade.Settings.Basic

/-!
This module contains lints: checks of the records of a batch that look at nothing else.
-/

namespace Facade.Batch

structure Lint where
  name : String
  description : String
  check : Settings → List Record → List Notice

namespace Lint

def about (r : Record) (severity : Severity) (message : String) : Notice where
  severity
  stage := "validate"
  message
  location := some r.name

/-- The notices about records whose classes are among those seen before them, at their indices. -/
def repetitions (seen : List (String × Nat)) (index : Nat) : List Record → List Notice
  | [] => []
  | r :: rs =>
    match seen.lookup r.name with
    -- indices start at zero, and the numbers in messages at one
    | some first =>
      let repeated := s!"record #{index + 1} repeats class '{r.name}'"
      let notice := about r .warning (repeated ++ s!" (first seen as record #{first + 1})")
      notice :: repetitions seen (index + 1) rs
    | none => repetitions ((r.name, index) :: seen) (index + 1) rs

/-- Warns of every record but the first one of a class. -/
def duplicateClass : Lint where
  name := "duplicate-class"
  description := "Detect classes reported by more than one record"
  check _ records := repetitions [] 0 records

def emptyEnum : Lint where
  name := "empty-enum"
  description := "Detect enums that declare no constants"
  check _ records :=
    (records.filter fun r => r.isEnum && r.constants.isEmpty).map fun r =>
      about r .warning "enum declares no constants"

def noPublicConstructor : Lint where
  name := "no-public-constructor"
  description := "Detect classes the wrapper cannot instantiate"
  check _ records :=
    (records.filter fun r => !r.isEnum && r.publicConstructors.isEmpty).map fun r =>
      about r .info "no public constructor; the wrapper only wraps existing instances"

/-- The lints that are used where nothing else is said. -/
def standard : List Lint :=
  [duplicateClass, emptyEnum, noPublicConstructor]

end Lint

end Facade.Batch
