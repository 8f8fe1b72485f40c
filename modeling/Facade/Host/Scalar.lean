/-!
This module contains the scalar values: those that host and target languages both have a type for.
-/

namespace Facade.Host

/-- A value that every language has a type of its own for. -/
inductive Scalar where
  | boolean
  | byte
  | short
  | int
  | long
  | float
  | double
  | char
  | string
  deriving DecidableEq, Repr

namespace Scalar

def all : List Scalar :=
  [boolean, byte, short, int, long, float, double, char, string]

def word : Scalar → String
  | boolean => "boolean"
  | byte => "byte"
  | short => "short"
  | int => "int"
  | long => "long"
  | float => "float"
  | double => "double"
  | char => "char"
  | string => "string"

def plainName : Scalar → String
  | string => "java.lang.String"
  | s => s.word

def boxedName? : Scalar → Option String
  | boolean => some "java.lang.Boolean"
  | byte => some "java.lang.Byte"
  | short => some "java.lang.Short"
  | int => some "java.lang.Integer"
  | long => some "java.lang.Long"
  | float => some "java.lang.Float"
  | double => some "java.lang.Double"
  | char => some "java.lang.Character"
  | string => none

def ofPlain? (name : String) : Option Scalar :=
  all.find? (·.plainName == name)

def ofBoxed? (name : String) : Option Scalar :=
  all.find? (·.boxedName? == some name)

def isPrimitive (s : Scalar) : Bool :=
  s != string

end Scalar

end Facade.Host
