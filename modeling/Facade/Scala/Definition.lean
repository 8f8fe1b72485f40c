import Facade.Source.Fragment
import Facade.Text.Pieces

/-!
This module contains the definitions that a Scala source consists of, and the fragments that they
are written as.
-/

namespace Facade.Scala

open Source

/-- A parameter of a method or a class. One of a class may be a member of it, too. -/
structure Param where
  name : String
  type : String
  isVal : Bool := false
  deriving DecidableEq, Repr

def Param.render (p : Param) : String :=
  (if p.isVal then "val " else "") ++ p.name ++ ": " ++ p.type

def paramList (params : List Param) : String :=
  "(" ++ ", ".intercalate (params.map Param.render) ++ ")"

/-- A method. Without `params` it has no parameter list at all. -/
structure Def where
  name : String
  params : Option (List Param) := none
  returns : Option String := none
  body : List Fragment := []
  isOverride : Bool := false
  doc : List String := []

namespace Def

def constructor (params : List Param) : Def :=
  { name := "this", params := some params }

def withExpression (expression : String) (d : Def) : Def :=
  { d with body := [.line expression] }

/-- A method that fits on fewer bytes than this is written on one line. -/
def inlineWidth : Nat := 100

def signature (d : Def) : String :=
  (if d.isOverride then "override " else "") ++ "def " ++ d.name ++
    (match d.params with
      | some params => paramList params
      | none => "") ++
    (match d.returns with
      | some type => ": " ++ type
      | none => "") ++
    " ="

/-- The lines of a method without its comment. A block goes on behind the equals sign. -/
def code (d : Def) : List Fragment :=
  let outside := [.line d.signature, .indent d.body]
  match d.body with
  | [.line expression] =>
    if d.signature.utf8ByteSize + expression.utf8ByteSize < inlineWidth then
      [.line (d.signature ++ " " ++ expression)]
    else outside
  | [.block header body close] => [.block (d.signature ++ " " ++ header) body close]
  | _ => outside

def fragments (d : Def) : List Fragment :=
  (if d.doc.isEmpty then [] else [.doc d.doc]) ++ d.code

end Def

/-- Groups of fragments with a blank line between each two. Empty groups do not count. -/
def separated (groups : List (List Fragment)) : List Fragment :=
  [Fragment.blank].intercalate (groups.filter fun group => !group.isEmpty)

/-- A definition with members in braces. There are no braces without members. -/
def withMembers (header : String) (members : List (List Fragment)) : List Fragment :=
  if members.all List.isEmpty then [.line header]
  else [.braced header (separated members)]

structure ClassDef where
  name : String
  modifiers : List String := []
  params : List Param := []
  members : List (List Fragment) := []

namespace ClassDef

def header (c : ClassDef) : String :=
  String.join (c.modifiers.map (· ++ " ")) ++ "class " ++ c.name ++ paramList c.params

def fragments (c : ClassDef) : List Fragment :=
  withMembers c.header c.members

end ClassDef

structure ObjectDef where
  name : String
  isCase : Bool := false
  /-- The class that is extended, with the arguments of its constructor. -/
  parent : Option String := none
  members : List (List Fragment) := []

namespace ObjectDef

def header (o : ObjectDef) : String :=
  (if o.isCase then "case " else "") ++ "object " ++ o.name ++
    match o.parent with
    | some parent => " extends " ++ parent
    | none => ""

def fragments (o : ObjectDef) : List Fragment :=
  withMembers o.header o.members

end ObjectDef

structure Case where
  pattern : String
  /-- A single line stands behind the arrow, and several below it. -/
  body : List String

def Case.fragment (c : Case) : Fragment :=
  match c.body with
  | [single] => .line ("case " ++ c.pattern ++ " => " ++ single)
  | lines => .block ("case " ++ c.pattern ++ " =>") (lines.map .line) none

def matchFragment (scrutinee : String) (cases : List Case) : Fragment :=
  .braced (scrutinee ++ " match") (cases.map Case.fragment)

/-- An expression whose value is put to the right, and the given exceptions to the left. -/
def tryFragments (expression : String) (exceptions : List String) : List Fragment :=
  [
    .line ("try Right(" ++ expression ++ ")"),
    .braced "catch" (exceptions.map fun e => .line ("case e: " ++ e ++ " => Left(e)"))
  ]

end Facade.Scala
