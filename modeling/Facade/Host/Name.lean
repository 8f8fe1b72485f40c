import Facade.Text.Case
import Facade.Text.Pieces

/-!
This module contains the rules for names of the host language: how a member name and the property
that it stands for are spelled, and what the parts of a qualified class name are.
-/

namespace Facade.Host

open Facade.Text

def capitalize (name : List Char) : List Char :=
  match name with
  | [] => []
  | c :: cs => upper c ++ cs

/--
The name with its first character in lower case. A name that starts with two capitals is an
abbreviation and stays as it is: `FirstName` becomes `firstName` and `URL` stays `URL`.
-/
def decapitalize (name : List Char) : List Char :=
  match name with
  | [] => []
  | [c] => lower c
  | c :: d :: cs => if isCapital c && isCapital d then name else lower c ++ d :: cs

def isWordBreak (c : Char) : Bool :=
  c == '_' || c == '-' || c == '$'

/-- The words of a name run together, each with a capital: `hello_world` becomes `HelloWorld`. -/
def pascalCase (name : String) : String :=
  String.ofList ((pieces isWordBreak name.toList).flatMap capitalize)

/-- The package of a qualified class name. It is empty for a class outside all packages. -/
def packageOf (qualified : String) : String :=
  match cutLast? '.' qualified.toList with
  | some (package, _) => String.ofList package
  | none => ""

/-- The name of a class without its package. The name of a nested class keeps its `$`. -/
def simpleNameOf (qualified : String) : String :=
  match cutLast? '.' qualified.toList with
  | some (_, name) => String.ofList name
  | none => qualified

def replaceChar (old new : Char) (s : String) : String :=
  String.ofList (s.toList.map fun c => if c = old then new else c)

def sourceNameOf (qualified : String) : String :=
  replaceChar '$' '.' qualified

def directoryOf (package : String) : String :=
  replaceChar '.' '/' package

end Facade.Host
