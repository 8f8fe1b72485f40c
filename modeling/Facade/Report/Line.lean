/-!
This module contains the lines of reports: what each of them is about, and how a terminal shows it.
-/

namespace Facade.Report

inductive Line where
  | heading (name : String)
  | pair (key value : String)
  | item (text : String)
  /-- Something that is new or has changed. -/
  | added (text : String)
  /-- Something that went wrong, with the reason. -/
  | failed (text reason : String)
  | error (message : String)
  | warning (message : String)
  | divider (label : String)
  | plain (text : String)
  | blank
  deriving DecidableEq, Repr

namespace Line

def text : Line → String
  | heading name => name ++ ":"
  | pair key value => key ++ ": " ++ value
  | item text => "  - " ++ text
  | added text => "  + " ++ text
  | failed text reason => "  x " ++ text ++ "\n      " ++ reason
  | error message => "error: " ++ message
  | warning message => "warning: " ++ message
  | divider label => "── " ++ label ++ " ──"
  | plain text => text
  | blank => ""

/-- Whether a line tells of a problem. Such lines go to the terminal apart from the others. -/
def isProblem : Line → Bool
  | failed _ _ => true
  | error _ => true
  | warning _ => true
  | _ => false

def renderAll (lines : List Line) : String :=
  String.join (lines.map fun l => l.text ++ "\n")

end Line

end Facade.Report
