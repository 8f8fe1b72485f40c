import Facade.Host.Nullability
import Facade.Scala.NamePool
import Facade.Scala.ScalaType

/-!
This module contains outlines of wrappers: everything that the source of a wrapper is written from,
with the final names and types of its members.
-/

namespace Facade.Scala

open Host

/-- Why no outline is made: the class is refused, or its description breaks a promise. -/
inductive Stop where
  | refused (refusal : Refusal)
  | broken (breach : Breach)
  deriving DecidableEq, Repr

namespace Outline

/-- The type of a member: that of the host, what stands for it, and what the wrapper shows. -/
structure MemberType where
  host : HostType
  mapped : ScalaType
  target : ScalaType
  nullable : Bool

structure Parameter where
  hostName : String
  name : String
  type : MemberType

structure Constructor where
  parameters : List Parameter

structure Getter where
  hostMethod : String
  name : String
  type : MemberType
  throws : List String
  /-- The field that is read. A value that is computed has none. -/
  field : Option String

structure Setter where
  hostMethod : String
  name : String
  /-- The type of what is assigned. -/
  type : MemberType
  throws : List String
  field : String

structure Constant where
  host : String
  name : String
  deriving DecidableEq, Repr

inductive Body where
  | enumeration (constants : List Constant)
  /-- Fields are read in their order, and then computed values in theirs. -/
  | members (constructors : List Constructor) (getters : List Getter) (setters : List Setter)

end Outline

/-- The outline of a wrapper. -/
structure Outline where
  /-- The qualified name of the class. -/
  className : String
  package : String
  /-- The name of the wrapper as it is written. -/
  name : String
  /-- The name of the file without its extension. -/
  fileStem : String
  body : Outline.Body

namespace Outline

/-- The names that the companion of an enumeration uses. -/
def companionMembers : List String :=
  ["values", "fromJava", "toJava"]

/-- What members are outlined against: the catalog, the class and the package of its wrapper. -/
structure Context where
  catalog : Catalog
  host : HostClass
  package : String

def claimName (base : String) (pool : NamePool) : Except Stop (String × NamePool) :=
  match pool.claim base with
  | .ok claimed => .ok claimed
  | .error refusal => .error (.refused refusal)

def memberType (context : Context) (member : String) (host : HostType) (nullable : Bool) :
    Except Stop MemberType :=
  match typeForMember context.catalog context.package member host with
  | .ok mapped => .ok { host, mapped, target := withNullable nullable mapped, nullable }
  | .error refusal => .error (.refused refusal)

def breach (context : Context) (detail : String) : Except Stop α :=
  .error (.broken ⟨context.host.name, detail⟩)

def parameters (context : Context) (index : Nat) :
    NamePool → List HostClass.Parameter → Except Stop (List Parameter)
  | _, [] => .ok []
  | pool, p :: ps => do
    let member := Record.constructorParameterName context.host.name index p.name
    let (name, pool) ← claimName p.name pool
    let type ← memberType context member p.type (HostClass.parameterNullable p)
    let rest ← parameters context index pool ps
    return { hostName := p.name, name, type } :: rest

/-- Outlines constructors from the one with the given index on. -/
def constructors (context : Context) :
    (index : Nat) → List HostClass.Constructor → Except Stop (List Constructor)
  | _, [] => .ok []
  | index, c :: cs => do
    -- every constructor has a pool of its own for its parameters
    let first ← parameters context index .empty c.parameters
    let rest ← constructors context (index + 1) cs
    return ⟨first⟩ :: rest

/-- The types of the parameters of a constructor as they are at run time. -/
def Constructor.erased (c : Constructor) : List String :=
  c.parameters.map fun p => p.type.target.erased

/--
Checks that the constructors from an index on take other parameters than those `seen` before them.
The constructor that takes the wrapped object has no index.
-/
def checkErased (className : String) (seen : List (List String × Option Nat)) :
    (index : Nat) → List Constructor → Except Stop Unit
  | _, [] => .ok ()
  | index, c :: cs =>
    match seen.lookup c.erased with
    | some other =>
      .error (.refused (.clash s!"{className}.<init>#{index}" (.sameErasure c.erased other)))
    | none => checkErased className ((c.erased, some index) :: seen) (index + 1) cs

def getter (context : Context) (pool : NamePool) (property : String) (m : HostClass.Method) :
    Except Stop (Getter × NamePool) := do
  let member := Record.methodName context.host.name m.name
  let (name, pool) ← claimName property pool
  let type ← memberType context member m.returns (context.host.getterNullable m)
  return ({ hostMethod := m.name, name, type, throws := m.throws, field := m.field }, pool)

def fieldGetters (context : Context) :
    NamePool → List HostClass.Field → Except Stop (List Getter × NamePool)
  | pool, [] => .ok ([], pool)
  | pool, f :: fs =>
    match context.host.getterFor? f.name with
    | none => breach context s!"field `{f.name}` is marked accessible but has no accessor"
    | some m => do
      let (first, pool) ← getter context pool f.name m
      let (rest, pool) ← fieldGetters context pool fs
      return (first :: rest, pool)

def propertyOf (m : HostClass.Method) : String :=
  (Record.getterProperty? m.name m.returns.isBoolean).getD
    (String.ofList (decapitalize m.name.toList))

def computedGetters (context : Context) :
    NamePool → List HostClass.Method → Except Stop (List Getter × NamePool)
  | pool, [] => .ok ([], pool)
  | pool, m :: ms => do
    let (first, pool) ← getter context pool (propertyOf m) m
    let (rest, pool) ← computedGetters context pool ms
    return (first :: rest, pool)

def setter (context : Context) (pool : NamePool) (field : String) (m : HostClass.Method) :
    Except Stop (Setter × NamePool) :=
  match m.parameters with
  | [parameter] => do
    let member := Record.methodName context.host.name m.name
    let (name, pool) ← claimName m.name pool
    let type ← memberType context member parameter (context.host.setterNullable m)
    return ({ hostMethod := m.name, name, type, throws := m.throws, field }, pool)
  | _ => breach context s!"mutator `{m.name}` does not take exactly one parameter"

def setters (context : Context) :
    NamePool → List HostClass.Field → Except Stop (List Setter)
  | _, [] => .ok []
  | pool, f :: fs =>
    match context.host.setterFor? f.name with
    | none => breach context s!"field `{f.name}` is marked mutable but has no mutator"
    | some m => do
      let (first, pool) ← setter context pool f.name m
      let rest ← setters context pool fs
      return first :: rest

def members (context : Context) : Except Stop Body := do
  let constructors ← constructors context 0 context.host.constructors
  checkErased context.host.name [([erasedHost context.host.name], none)] 0 constructors
  -- all members share a pool: fields are named first, then computed values, and then setters
  let (bound, pool) ←
    fieldGetters context .members (context.host.fields.filter HostClass.Field.hasGetter)
  let (computed, pool) ← computedGetters context pool context.host.computed
  let setters ← setters context pool (context.host.fields.filter HostClass.Field.hasSetter)
  return .members constructors (bound ++ computed) setters

def constants : NamePool → List String → Except Stop (List Constant)
  | _, [] => .ok []
  | pool, host :: hosts => do
    let (name, pool) ← claimName host pool
    let rest ← constants pool hosts
    return { host, name } :: rest

def bodyOf (context : Context) : Except Stop Body :=
  if context.host.isEnum then do
    return .enumeration
      (← constants (NamePool.members.reserve companionMembers) context.host.constants)
  else members context

def ofClass (catalog : Catalog) (host : HostClass) : Except Stop Outline :=
  match catalog.get? host.name with
  | none => .error (.broken ⟨host.name, "class is missing from the registry"⟩)
  | some entry =>
    -- the name of an entry is in Pascal case already, and stays as it is
    let typeName := pascalCase entry.name
    match safeName? typeName with
    | none => .error (.refused (.clash typeName .illegalWrapper))
    | some name => do
      let package := entry.package
      let body ← bodyOf { catalog, host, package }
      return { className := host.name, package, name, fileStem := typeName, body }

end Outline

end Facade.Scala
