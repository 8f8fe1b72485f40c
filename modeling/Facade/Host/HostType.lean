import Facade.Host.Scalar

/-!
This module contains references to host types, as the members of a class use them.
-/

namespace Facade.Host

/-- What is known about a host type from its name and the batch it occurs in. -/
inductive TypeKind where
  /-- A primitive type or the string class. -/
  | plain
  /-- A class whose objects hold a primitive value. -/
  | boxed
  | enumeration
  | object
  | applied
  deriving DecidableEq, Repr

/--
A reference to a host type. `arguments` are those of a generic type, and `nullable` tells whether
a value of the type may be absent.
-/
inductive HostType where
  | mk (kind : TypeKind) (name : String) (arguments : List HostType) (nullable : Bool)
  deriving Repr

namespace HostType

def kind : HostType → TypeKind
  | mk kind _ _ _ => kind

def name : HostType → String
  | mk _ name _ _ => name

def arguments : HostType → List HostType
  | mk _ _ arguments _ => arguments

def nullable : HostType → Bool
  | mk _ _ _ nullable => nullable

/-- The type that holds a scalar as it is. Only a string may be absent. -/
def plain (s : Scalar) : HostType :=
  mk .plain s.plainName [] (!s.isPrimitive)

/-- The class whose objects hold a scalar. A string needs no such class. -/
def boxed (s : Scalar) : HostType :=
  match s.boxedName? with
  | some name => mk .boxed name [] true
  | none => plain s

def enumeration (name : String) : HostType :=
  mk .enumeration name [] true

def object (name : String) : HostType :=
  mk .object name [] true

def applied (name : String) (arguments : List HostType) : HostType :=
  mk .applied name arguments true

/-- The result of a method that returns nothing. -/
def void : HostType :=
  mk .plain "void" [] false

def isVoid (t : HostType) : Bool :=
  t.kind == .plain && t.name == "void"

def scalar? (t : HostType) : Option Scalar :=
  match t.kind with
  | .plain => Scalar.ofPlain? t.name
  | .boxed => Scalar.ofBoxed? t.name
  | _ => none

/-- Whether this is a primitive type, which has no null value. -/
def isPrimitive (t : HostType) : Bool :=
  t.kind == .plain && t.scalar?.any Scalar.isPrimitive

def isBoolean (t : HostType) : Bool :=
  t.scalar? == some .boolean

/-- The type with the given nullability. A value of a primitive type is never absent. -/
def withNullable (nullable : Bool) (t : HostType) : HostType :=
  mk t.kind t.name t.arguments (nullable && !t.isPrimitive)

mutual

/-- Whether a name occurs in the type or in one of its arguments. -/
def mentions (target : String) : HostType → Bool
  | mk _ name arguments _ => name == target || anyMentions target arguments

def anyMentions (target : String) : List HostType → Bool
  | [] => false
  | t :: ts => t.mentions target || anyMentions target ts

end

mutual

/-- Whether two types are the same but for what may be absent in them. -/
def sameShape : HostType → HostType → Bool
  | mk kind name arguments _, mk kind' name' arguments' _ =>
    kind == kind' && name == name' && allSameShape arguments arguments'

def allSameShape : List HostType → List HostType → Bool
  | [], [] => true
  | t :: ts, u :: us => t.sameShape u && allSameShape ts us
  | _, _ => false

end

mutual

/-- The type as source code spells it: `java.util.Map<a.Key, a.Value>`. -/
def render : HostType → String
  | mk _ name [] _ => name
  | mk _ name (t :: ts) _ => name ++ "<" ++ t.render ++ renderMore ts ++ ">"

def renderMore : List HostType → String
  | [] => ""
  | t :: ts => ", " ++ t.render ++ renderMore ts

end

end HostType

end Facade.Host
