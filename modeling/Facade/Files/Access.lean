import Facade.Files.Path

/-!
This module contains what is asked of a place that holds files, and the rules by which files are
written to it.
-/

namespace Facade.Files

/-- Access to files and directories by their paths. -/
class Access (m : Type → Type) where
  /-- The text of a file that can be read. -/
  readText? : Path → m (Option String)
  isFile : Path → m Bool
  isDirectory : Path → m Bool
  /-- The names of what is in a directory, in any order. -/
  entries : Path → m (List String)
  /-- Makes a directory and those that it is in. Tells whether it is there then. -/
  makeDirectories : Path → m Bool
  /-- Writes a file into a directory that is there. Tells whether that was possible. -/
  writeText : Path → String → m Bool

/-- What is done about a file that is there already. -/
inductive Rule where
  /-- It is replaced unless it has the same content. -/
  | replace
  | keep
  deriving DecidableEq, Repr

inductive Outcome where
  | written
  /-- The file was there and had the same content. -/
  | unchanged
  /-- The file was there and was kept. -/
  | skipped
  deriving DecidableEq, Repr

def Outcome.word : Outcome → String
  | written => "written"
  | unchanged => "unchanged"
  | skipped => "skipped"

section

variable {m : Type → Type} [Monad m] [Access m]

def exists? (path : Path) : m Bool := do
  if ← Access.isFile path then return true
  else Access.isDirectory path

def create (path : Path) (content : String) : m (Option Outcome) := do
  let ready ← Access.makeDirectories ((Path.parent? path).getD "")
  if !ready then return none
  else if ← Access.writeText path content then return some .written
  else return none

/-- Writes a file by a rule. There is no outcome if that is not possible. -/
def write (rule : Rule) (path : Path) (content : String) : m (Option Outcome) := do
  match rule with
  | .replace =>
    if (← Access.readText? path) = some content then return some .unchanged
    else create path content
  | .keep =>
    if ← exists? path then return some .skipped
    else create path content

end

end Facade.Files
