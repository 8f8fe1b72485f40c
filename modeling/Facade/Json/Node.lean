import Facade.Data.Tree

/-!
This module contains JSON values together with their places in a text, and the faults that a text
may have.
-/

namespace Facade.Json

open Facade.Data

/-- What is wrong at some place of a JSON text. -/
inductive Complaint where
  | endInValue
  | endInString
  | endInList
  | endInObject
  | expectedValue
  | expectedIdent
  | expectedColon
  | expectedCommaOrBracket
  | expectedCommaOrBrace
  | trailingComma
  | trailingCharacters
  | keyNotString
  | invalidNumber
  | numberOutOfRange
  | invalidEscape
  | loneSurrogate
  | unfinishedSurrogate
  | controlCharacter

def Complaint.message : Complaint → String
  | endInValue => "EOF while parsing a value"
  | endInString => "EOF while parsing a string"
  | endInList => "EOF while parsing a list"
  | endInObject => "EOF while parsing an object"
  | expectedValue => "expected value"
  | expectedIdent => "expected ident"
  | expectedColon => "expected `:`"
  | expectedCommaOrBracket => "expected `,` or `]`"
  | expectedCommaOrBrace => "expected `,` or `\x7d`"
  | trailingComma => "trailing comma"
  | trailingCharacters => "trailing characters"
  | keyNotString => "key must be a string"
  | invalidNumber => "invalid number"
  | numberOutOfRange => "number out of range"
  | invalidEscape => "invalid escape"
  | loneSurrogate => "lone leading surrogate in hex escape"
  | unfinishedSurrogate => "unexpected end of hex escape"
  | controlCharacter => "control character (\\u0000-\\u001F) found while parsing a string"

/--
A fault: what is wrong, the byte at which the faulty part starts, and the number of bytes up to the
place where it shows.
-/
structure Fault where
  complaint : Complaint
  start : Nat
  position : Nat

/-- A value without parts. A number with a fraction or an exponent is kept as its text. -/
inductive Atom where
  | null
  | flag (value : Bool)
  | integer (value : Int)
  | decimal (digits : String)
  | text (value : String)

/--
The key of an entry with the number of bytes up to its end, and up to the place where a reader that
gives up on the entry stops: behind white space and a closing brace.
-/
structure Key where
  name : String
  stop : Nat
  resting : Nat

/--
A value in a text, with the byte it starts at and the number of bytes up to its end. A list or an
object may break off with a fault instead. The number beside an entry is the number of bytes up to
what follows the entry.
-/
inductive Node where
  | atom (value : Atom) (start stop : Nat)
  | list (start : Nat) (items : List Node) (ending : Except Fault Nat)
  | table (start : Nat) (entries : List (Key × Node × Nat)) (ending : Except Fault Nat)
  | broken (fault : Fault)

def isWhole : Except Fault Nat → Bool
  | .ok _ => true
  | .error _ => false

namespace Atom

def tree : Atom → Tree
  | null => .null
  | flag b => .flag b
  | integer n => .integer n
  | decimal digits => .decimal digits
  | text s => .text s

end Atom

namespace Node

mutual

def tree : Node → Tree
  | atom value _ _ => value.tree
  | list _ items ending => .list (trees items) (isWhole ending)
  | table _ entries ending => .table (entryTrees entries) (isWhole ending)
  | broken _ => .gap

def trees : List Node → List Tree
  | [] => []
  | node :: nodes => node.tree :: trees nodes

def entryTrees : List (Key × Node × Nat) → List (String × Tree)
  | [] => []
  | (key, node, _) :: entries => (key.name, node.tree) :: entryTrees entries

end

end Node

end Facade.Json
