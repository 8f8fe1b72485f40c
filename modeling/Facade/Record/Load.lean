import Facade.Files.Access
import Facade.Record.Reader

/-!
This module contains the loading of records from metadata files.
-/

namespace Facade.Metadata

open Data Input Files

def format? (path : Path) : Option Decode.Format :=
  match path.extension? with
  | some "json" => some .json
  | some "toml" => some .toml
  | _ => none

section

variable {m : Type → Type} [Monad m] [Access m]

def loadFile (path : Path) : ExceptT Error m (List Record) := do
  match format? path with
  | none => throw (.unknownFormat path)
  | some format =>
    match ← (Access.readText? path : m (Option String)) with
    | none => throw (.unreadable path)
    | some text =>
      match parse format text with
      | .ok metadata => return metadata.classes
      | .error error => throw error

/-- The metadata files that an input stands for: those in a directory in the order of their names. -/
def expand (input : Path) : m (List Path) := do
  if ← Access.isDirectory input then
    let names ← Access.entries input
    let sorted := names.mergeSort fun a b => !(b < a)
    let paths := sorted.map (Path.join input)
    (paths.filter fun path => (format? path).isSome).filterM Access.isFile
  else return [input]

def load (inputs : List Path) : ExceptT Error m (List Record) := do
  let paths ← (inputs.flatMapM expand : m (List Path))
  return (← paths.mapM loadFile).flatten

end

end Facade.Metadata
