import Facade.Host.HostClass

/-!
This module contains the rules for which members of a class may be without a value.
-/

namespace Facade.Host.HostClass

/-- Whether a field may be empty: neither the field nor the method that reads it says otherwise. -/
def fieldNullable (c : HostClass) (f : Field) : Bool :=
  let getterNullable :=
    -- without a method that reads the field, only the field counts
    match c.getterFor? f.name with
    | some getter => getter.returns.nullable
    | none => true
  f.type.nullable && getterNullable

/-- Whether a method may return no value. One that reads a field follows the field. -/
def getterNullable (c : HostClass) (m : Method) : Bool :=
  match m.field.bind c.field? with
  | some f => c.fieldNullable f
  | none => m.returns.nullable

/-- Whether a method may be given no value. One that assigns a field follows the field. -/
def setterNullable (c : HostClass) (m : Method) : Bool :=
  match m.field.bind c.field? with
  | some f => c.fieldNullable f
  | none => m.parameters.any HostType.nullable

def parameterNullable (p : Parameter) : Bool :=
  p.type.nullable

end Facade.Host.HostClass
