/-!
This module contains class records: what a metadata file reports about the classes of a host
library. Types are kept as they are written there.
-/

namespace Facade

namespace Record

inductive Modifier where
  | «public»
  | «protected»
  | «private»
  | static
  | final
  | abstract
  | transient
  | volatile
  | synchronized
  | native
  deriving DecidableEq, Repr

def Modifier.words : List (String × Modifier) :=
  [
    ("public", .public), ("protected", .protected), ("private", .private), ("static", .static),
    ("final", .final), ("abstract", .abstract), ("transient", .transient),
    ("volatile", .volatile), ("synchronized", .synchronized), ("native", .native)
  ]

def Modifier.word : Modifier → String
  | .public => "public"
  | .protected => "protected"
  | .private => "private"
  | .static => "static"
  | .final => "final"
  | .abstract => "abstract"
  | .transient => "transient"
  | .volatile => "volatile"
  | .synchronized => "synchronized"
  | .native => "native"

structure Field where
  name : String
  type : String
  modifiers : List Modifier
  annotations : List String
  deriving DecidableEq, Repr

structure Parameter where
  name : String
  type : String
  annotations : List String
  deriving DecidableEq, Repr

structure Constructor where
  parameters : List Parameter
  modifiers : List Modifier
  deriving DecidableEq, Repr

structure Method where
  name : String
  returns : String
  parameters : List Parameter
  throws : List String
  annotations : List String
  modifiers : List Modifier
  deriving DecidableEq, Repr

/-- Whether a record is about a class or an enumeration. -/
inductive Kind where
  | «class»
  | enumeration
  deriving DecidableEq, Repr

end Record

/-- What is reported about a class. -/
structure Record where
  /-- The qualified name. A nested class stands behind a `$`. -/
  name : String
  kind : Record.Kind
  /-- The constants of an enumeration in the order of their declaration. -/
  constants : List String
  modifiers : List Record.Modifier
  fields : List Record.Field
  constructors : List Record.Constructor
  methods : List Record.Method
  deriving DecidableEq, Repr

namespace Record

def isOpen (modifiers : List Modifier) : Bool :=
  modifiers.contains .public && !modifiers.contains .static

def Field.isStatic (f : Field) : Bool :=
  f.modifiers.contains .static

def Field.isFinal (f : Field) : Bool :=
  f.modifiers.contains .final

def Method.isVoid (m : Method) : Bool :=
  m.returns == "void"

def isEnum (r : Record) : Bool :=
  r.kind == .enumeration

/-- The constructors that can be called from everywhere. -/
def publicConstructors (r : Record) : List Constructor :=
  r.constructors.filter fun c => isOpen c.modifiers

/-- The methods that can be called from everywhere on an instance. -/
def publicMethods (r : Record) : List Method :=
  r.methods.filter fun m => isOpen m.modifiers

end Record

end Facade
