import Facade.Input.Error
import Facade.Settings.Format
import Facade.Toml.Reader

/-!
This module contains the reading of settings files, and the conditions that settings have to meet.
-/

namespace Facade

open Data Text Input

namespace Settings

def isSegmentStart (c : Char) : Bool :=
  c.isAlpha || c == '_'

def isSegmentChar (c : Char) : Bool :=
  c.isAlphanum || c == '_'

def segmentProblem? (segment : List Char) : Option String :=
  match segment with
  | [] => some "package segments cannot be empty"
  | c :: cs =>
    if !isSegmentStart c then some "package segments must start with a letter or underscore"
    else if !cs.all isSegmentChar then
      some "package segments must contain only letters, digits, and underscores"
    else none

def suffixProblem? (suffix : String) : Option String :=
  if suffix.isEmpty then some "package suffix cannot be empty"
  else (pieces (· == '.') suffix.toList).findSome? segmentProblem?

def externalProblem? (host target : String) : Option (String × Option String) :=
  if isBlankText host then some ("external type name cannot be empty", none)
  else if isBlankText target then
    some (s!"external type '{host}' maps to an empty target type", some host)
  else none

def problem? (text : String) (settings : Settings) : Option Error :=
  -- of several problems, that of the suffix is told
  let suffix := settings.generator.packageSuffix
  match suffixProblem? suffix with
  | some reason => some (.ofSuffix text suffix reason)
  | none =>
    (settings.externalTypes.findSome? fun (host, target) => externalProblem? host target).map
      fun (message, key) => .ofSetting text message key

def parse (text : String) : Except Error Settings :=
  match Toml.parse text with
  | none => .error .badToml
  | some tree =>
    match (shape .toml).read .toml tree with
    | .error _ => .error .badToml
    | .ok settings =>
      match settings.problem? text with
      | some error => .error error
      | none => .ok settings

end Settings

end Facade
