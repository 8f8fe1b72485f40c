import Facade.Catalog
import Facade.Scala.Name

/-!
This module contains the types of Scala that stand for host types in wrappers.
-/

namespace Facade.Scala

open Text Host

/-- A type of a wrapper's member. -/
inductive ScalaType where
  /-- A scalar. It is `boxed` if the host holds it in an object. -/
  | scalar (s : Scalar) (boxed : Bool)
  /-- The wrapper of an enumeration: how it is referred to, and its qualified name. -/
  | enumeration (name qualified : String)
  /-- The wrapper of a class: how it is referred to, and its qualified name. -/
  | wrapper (name qualified : String)
  /-- A type that settings give for a host type. -/
  | external (expression : String)
  | list (element : ScalaType)
  | set (element : ScalaType)
  | map (key value : ScalaType)
  | option (value : ScalaType)
  deriving DecidableEq, Repr

def scalarName : Scalar → String
  | .boolean => "Boolean"
  | .byte => "Byte"
  | .short => "Short"
  | .int => "Int"
  | .long => "Long"
  | .float => "Float"
  | .double => "Double"
  | .char => "Char"
  | .string => "String"

namespace ScalaType

def holdsMap : ScalaType → Bool
  | map _ _ => true
  | list element => element.holdsMap
  | set element => element.holdsMap
  | option value => value.holdsMap
  | _ => false

def holdsCollection : ScalaType → Bool
  | list _ => true
  | set _ => true
  | map _ _ => true
  | option value => value.holdsCollection
  | _ => false

def render : ScalaType → String
  | scalar s _ => scalarName s
  | enumeration name _ => name
  | wrapper name _ => name
  | external expression => expression
  | list element => "List[" ++ element.render ++ "]"
  | set element => "Set[" ++ element.render ++ "]"
  | map key value => "Map[" ++ key.render ++ ", " ++ value.render ++ "]"
  | option value => "Option[" ++ value.render ++ "]"

/-- The type as it is at run time, when the arguments of types are forgotten. -/
def erased : ScalaType → String
  | scalar s _ => s.plainName
  | enumeration _ qualified => qualified
  | wrapper _ qualified => qualified
  | external expression =>
    withoutRoot (String.ofList (expression.toList.takeWhile (· != '[')))
  | list _ => "scala.collection.immutable.List"
  | set _ => "scala.collection.immutable.Set"
  | map _ _ => "scala.collection.immutable.Map"
  | option _ => "scala.Option"

end ScalaType

/-- A host class as it is at run time. -/
def erasedHost (qualified : String) : String :=
  String.ofList ((withoutRoot (hostReference qualified)).toList.filter (· != '`'))

/-- A kind of collections that host and Scala both have. -/
inductive Collection where
  | list
  | set
  | map
  deriving DecidableEq, Repr

namespace Collection

def arity : Collection → Nat
  | list => 1
  | set => 1
  | map => 2

/-- The collection that a host type is, whatever its arguments. -/
def named? (name : String) : Option Collection :=
  match name with
  | "java.util.List" => some list
  | "java.util.Collection" => some list
  | "java.lang.Iterable" => some list
  | "java.util.Set" => some set
  | "java.util.Map" => some map
  | _ => none

def of? (name : String) (arguments : Nat) : Option Collection :=
  (named? name).filter (·.arity == arguments)

def missing : ScalaType := .external "Any"

def apply (collection : Collection) (arguments : List ScalaType) : ScalaType :=
  let first := arguments.head?.getD missing
  let second := (arguments.drop 1).head?.getD missing
  match collection with
  | list => .list first
  | set => .set first
  | map => .map first second

end Collection

/-- A wrapper as it is referred to in a package: by its name in its own, and from the root elsewhere. -/
def reference (entry : Catalog.Entry) (package : String) : String :=
  let name := (safeName? entry.name).getD entry.name
  if entry.package = package then name
  else rootStart ++ escapePath entry.package ++ "." ++ name

/-- The type of a wrapper, as it is referred to in a package. -/
def wrapperType (entry : Catalog.Entry) (package : String) : ScalaType :=
  if entry.isEnum then .enumeration (reference entry package) entry.qualifiedName
  else .wrapper (reference entry package) entry.qualifiedName

/-- The type for a class by its name: its wrapper, or what settings give for it. -/
def namedType? (catalog : Catalog) (package name : String) : Option ScalaType :=
  -- a wrapper goes before what settings give for its class
  match catalog.get? name with
  | some entry => some (wrapperType entry package)
  | none => (catalog.external? name).map .external

mutual

/-- The type for a host type in a wrapper of a package, or the host type that has none. -/
def typeFor (catalog : Catalog) (package : String) : HostType → Except HostType ScalaType
  | .mk kind name arguments nullable =>
    let host : HostType := .mk kind name arguments nullable
    match kind with
    | .plain => ((Scalar.ofPlain? name).map (.scalar · false)).elim (.error host) .ok
    | .boxed => ((Scalar.ofBoxed? name).map (.scalar · true)).elim (.error host) .ok
    | .applied =>
      -- a type that is no collection is reported before its arguments are looked at
      match Collection.of? name arguments.length with
      | none => .error host
      | some collection => do return collection.apply (← typesFor catalog package arguments)
    | .enumeration => (namedType? catalog package name).elim (.error host) .ok
    | .object => (namedType? catalog package name).elim (.error host) .ok

def typesFor (catalog : Catalog) (package : String) :
    List HostType → Except HostType (List ScalaType)
  | [] => .ok []
  | t :: ts => do
    let type ← typeFor catalog package t
    let types ← typesFor catalog package ts
    return type :: types

end

/-- The type for the host type of a member. -/
def typeForMember (catalog : Catalog) (package member : String) (host : HostType) :
    Except Refusal ScalaType :=
  match typeFor catalog package host with
  | .ok type => .ok type
  | .error unresolved => .error (.unresolved member unresolved.render)

def withNullable (nullable : Bool) (type : ScalaType) : ScalaType :=
  if nullable then .option type else type

end Facade.Scala
