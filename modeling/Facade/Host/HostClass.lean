import Facade.Host.HostType
import Facade.Host.Name

/-!
This module contains descriptions of host classes: the part of a class that a wrapper shows.
-/

namespace Facade.Host

namespace HostClass

/-- A field, and whether there are methods to read and to assign it. -/
structure Field where
  name : String
  type : HostType
  isFinal : Bool
  hasGetter : Bool
  hasSetter : Bool
  deriving Repr

structure Parameter where
  name : String
  type : HostType
  deriving Repr

structure Constructor where
  parameters : List Parameter
  deriving Repr

/-- A method that reads or assigns a value. -/
structure Method where
  name : String
  parameters : List HostType
  returns : HostType
  /-- The exceptions that the method declares, by their qualified names. -/
  throws : List String
  /-- The field that the method is for. A value that is computed has none. -/
  field : Option String
  deriving Repr

def Method.isFallible (m : Method) : Bool :=
  !m.throws.isEmpty

end HostClass

/-- The description of a host class. -/
structure HostClass where
  /-- The qualified name. A nested class stands behind a `$`. -/
  name : String
  fields : List HostClass.Field
  constructors : List HostClass.Constructor
  /-- The methods that read a value, in the order of their declaration. -/
  getters : List HostClass.Method
  /-- The methods that assign a field, in the order of their declaration. -/
  setters : List HostClass.Method
  isEnum : Bool
  /-- The constants of an enumeration in the order of their declaration. -/
  constants : List String
  deriving Repr

namespace HostClass

def plain (name : String) : HostClass where
  name
  fields := []
  constructors := []
  getters := []
  setters := []
  isEnum := false
  constants := []

def enumeration (name : String) (constants : List String) : HostClass :=
  { plain name with isEnum := true, constants }

def package (c : HostClass) : String :=
  packageOf c.name

def simpleName (c : HostClass) : String :=
  simpleNameOf c.name

def field? (c : HostClass) (name : String) : Option Field :=
  c.fields.find? (·.name == name)

def getterFor? (c : HostClass) (field : String) : Option Method :=
  c.getters.find? (·.field == some field)

def setterFor? (c : HostClass) (field : String) : Option Method :=
  c.setters.find? (·.field == some field)

def computed (c : HostClass) : List Method :=
  c.getters.filter (·.field.isNone)

def types (c : HostClass) : List HostType :=
  c.fields.map Field.type ++
    c.constructors.flatMap (fun k => k.parameters.map Parameter.type) ++
    c.getters.map Method.returns ++
    c.setters.flatMap Method.parameters

/-- Whether a member of the class uses the type of a name. -/
def references (c : HostClass) (name : String) : Bool :=
  c.types.any (·.mentions name)

end HostClass

end Facade.Host
