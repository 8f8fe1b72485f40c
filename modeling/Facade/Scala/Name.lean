import Facade.Record.Extract

/-!
This module contains the rules for names in Scala sources.
-/

namespace Facade.Scala

open Text Host

def reservedWords : List String :=
  [
    "abstract", "case", "catch", "class", "def", "do", "else", "extends", "false", "final",
    "finally", "for", "forSome", "if", "implicit", "import", "lazy", "macro", "match", "new",
    "null", "object", "override", "package", "private", "protected", "return", "sealed", "super",
    "this", "throw", "trait", "try", "true", "type", "val", "var", "while", "with", "yield"
  ]

/-- The members that every wrapper has already. -/
def reservedMembers : List String :=
  [
    "underlying", "equals", "hashCode", "toString", "getClass", "wait", "notify", "notifyAll",
    "clone", "finalize", "synchronized", "eq", "ne", "asInstanceOf", "isInstanceOf"
  ]

/-- The types that wrappers use by their simple names. -/
def standardTypes : List String :=
  [
    "Any", "Boolean", "Byte", "Char", "CollectionConverters", "Double", "Either", "Float", "Int",
    "Left", "List", "ListMap", "Long", "Map", "MatchError", "Option", "Right", "Seq", "Set",
    "Short", "String", "Throwable", "Unit"
  ]

def escaped (name : String) : String :=
  "`" ++ name ++ "`"

def isReserved (name : String) : Bool :=
  reservedWords.contains name

def isNameTail (chars : List Char) : Bool :=
  chars.all fun c => isWordChar c || c == '_' || c == '$'

/-- Whether a text is a name. One that ends in an underscore would take in a following colon. -/
def isIdentifier (name : String) : Bool :=
  match name.toList with
  | [] => false
  | c :: cs =>
    (isLetter c || c == '_' || c == '$') && isNameTail cs && (c :: cs).getLast? != some '_'

def safeName? (name : String) : Option String :=
  if isReserved name then some (escaped name)
  else if isIdentifier name then some name
  else none

/-- A path with its reserved words between backquotes. -/
def escapePath (path : String) : String :=
  ".".intercalate ((split (· == '.') path).map fun s => if isReserved s then escaped s else s)

/-- The package that holds all others. A path that starts there means the same everywhere. -/
def rootStart : String := "_root_."

/-- A host class as Scala sources refer to it. -/
def hostReference (qualified : String) : String :=
  rootStart ++ escapePath (sourceNameOf qualified)

/-- An exception as Scala sources refer to it. One of `java.lang` is known by its simple name. -/
def exceptionReference (qualified : String) : String :=
  match dropStart? "java.lang.".toList qualified.toList with
  | some simple => if simple.contains '.' then hostReference qualified else String.ofList simple
  | none => hostReference qualified

/-- Whether a wrapper of a name would hide a standard type. -/
def hidesStandardType (name : String) : Bool :=
  standardTypes.contains name

/-- Whether a wrapper of a name would hide a type that wrappers use by its simple name. -/
def isUnavailable (name : String) : Bool :=
  hidesStandardType name || Record.implicitExceptions.contains name

/-- A text without all repetitions of `start` at its start. `fuel` bounds their number. -/
def dropRepeated (start : List Char) : (fuel : Nat) → List Char → List Char
  | 0, text => text
  | fuel + 1, text =>
    match dropStart? start text with
    | some rest => dropRepeated start fuel rest
    | none => text

def withoutRoot (reference : String) : String :=
  let chars := reference.toList
  String.ofList (dropRepeated rootStart.toList chars.length chars)

end Facade.Scala
