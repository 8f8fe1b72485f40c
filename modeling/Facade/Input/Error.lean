import Facade.Input.Span
import Facade.Json.Explain

/-!
This module contains the errors of input files: settings and metadata that cannot be read, do not
have the form they should have, or have values that make no sense.
-/

namespace Facade.Input

/-- A part of a text that an error points at, with a text of its own. -/
structure Label where
  text : Option String
  span : Span

inductive Error where
  | unreadable (path : String)
  /-- The file is no settings or metadata file in TOML. -/
  | badToml
  /-- The file is no metadata file in JSON. -/
  | badJson (remark : String) (span : Option Span)
  /-- The name of a metadata file does not tell its format. -/
  | unknownFormat (path : String)
  /-- A setting has a value that makes no sense. -/
  | badSetting (message : String) (span : Option Span)
  /-- The package suffix is no package. -/
  | badSuffix (suffix reason : String) (span : Option Span)

namespace Error

def ofRemark (text : String) (remark : Json.Located) : Error :=
  .badJson remark.text ((offsetAt? text remark.line remark.column).map (⟨·, 1⟩))

def ofSetting (text message : String) (key : Option String) : Error :=
  .badSetting message (key.bind (keySpan? text))

def ofSuffix (text suffix reason : String) : Error :=
  .badSuffix suffix reason (keySpan? text "package_suffix")

def code : Error → String
  | unreadable _ => "wrapgen::io"
  | badToml => "wrapgen::parse_error"
  | badJson _ _ => "wrapgen::metadata_parse_error"
  | unknownFormat _ => "wrapgen::metadata_format"
  | badSetting _ _ => "wrapgen::validation_error"
  | badSuffix _ _ _ => "wrapgen::invalid_package"

def message : Error → String
  | unreadable path => s!"failed to read '{path}'"
  | badToml => "failed to parse TOML"
  | badJson _ _ => "failed to parse metadata JSON"
  | unknownFormat path => s!"unsupported metadata file '{path}'"
  | badSetting message _ => message
  | badSuffix suffix _ _ => s!"invalid package suffix '{suffix}'"

def help? : Error → Option String
  | unreadable _ => some "run 'wrapgen init' to create a wrapgen.toml"
  | unknownFormat _ => some "metadata files must end in .json or .toml"
  | badSuffix _ reason _ =>
    some <| reason ++ ". Use dot-separated segments of letters, digits, and underscores, " ++
      "e.g. 'wrappers' or 'scala.wrappers'."
  | _ => none

def labels : Error → List Label
  | badJson remark span => (span.map (⟨some remark, ·⟩)).toList
  | badSetting message span => (span.map (⟨some message, ·⟩)).toList
  | badSuffix _ _ span => (span.map (⟨some "invalid package", ·⟩)).toList
  | _ => []

end Error

end Facade.Input
