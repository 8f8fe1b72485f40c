/-!
This module contains notices: what the stages of a batch have to say about its records, short of
refusing a class.
-/

namespace Facade.Batch

inductive Severity where
  | error
  | warning
  | info
  deriving DecidableEq, Repr

def Severity.word : Severity → String
  | error => "error"
  | warning => "warning"
  | info => "info"

/-- A notice of a stage. -/
structure Notice where
  severity : Severity
  stage : String
  message : String
  /-- The class or member that the notice is about. -/
  location : Option String := none
  deriving DecidableEq, Repr

def Notice.render (n : Notice) : String :=
  n.severity.word ++ ": " ++ n.message ++
    match n.location with
    | some location => " (at " ++ location ++ ")"
    | none => ""

end Facade.Batch
