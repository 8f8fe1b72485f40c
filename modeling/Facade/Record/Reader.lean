import Facade.Input.Error
import Facade.Record.Format
import Facade.Toml.Reader

/-!
This module contains the reading of metadata files.
-/

namespace Facade

open Data Input

def Metadata.parse (format : Decode.Format) (text : String) : Except Error Metadata :=
  match format with
  | .json =>
    match Json.decodeText ((shape .json).read .json) text with
    | .ok metadata => .ok metadata
    | .error remark => .error (.ofRemark text remark)
  | .toml =>
    match Toml.parse text with
    | none => .error .badToml
    | some tree =>
      match (shape .toml).read .toml tree with
      | .ok metadata => .ok metadata
      | .error _ => .error .badToml

end Facade
