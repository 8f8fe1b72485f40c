import Facade.Files.Access
import Facade.Settings.Reader

/-!
This module contains settings files. The paths in one are relative to the directory that it is in.
-/

namespace Facade.Settings

open Input Files

/-- A settings file: its path, its text, and the settings in it. -/
structure File where
  path : Path
  content : String
  settings : Settings

namespace File

def load [Monad m] [Access m] (path : Path) : ExceptT Error m File := do
  match ← (Access.readText? path : m (Option String)) with
  | none => throw (.unreadable path)
  | some content =>
    match parse content with
    | .ok settings => return { path, content, settings }
    | .error error => throw error

def directory (file : File) : Path :=
  (Path.parent? file.path).getD "."

def inputs (file : File) : List Path :=
  file.settings.generator.inputs.map (Path.join file.directory)

def output (file : File) : Path :=
  Path.join file.directory file.settings.generator.output

end File

end Facade.Settings
