import Facade.Data.Tree
import Facade.Text.Quoted

/-!
This module contains the writing of values as JSON texts: every item and every entry stands on a
line of its own, indented by two spaces for each list or object around it.
-/

namespace Facade.Json

open Facade.Data Facade.Text

def fourHexDigits (n : Nat) : List Char :=
  let digits := hexDigits n
  List.replicate (4 - digits.length) '0' ++ digits

/-- A character inside of a JSON string. -/
def escapeChar (c : Char) : List Char :=
  if c = '"' then ['\\', '"']
  else if c = '\\' then ['\\', '\\']
  else if c = '\x08' then ['\\', 'b']
  else if c = '\x0c' then ['\\', 'f']
  else if c = '\n' then ['\\', 'n']
  else if c = '\r' then ['\\', 'r']
  else if c = '\t' then ['\\', 't']
  else if c.toNat < 32 then ['\\', 'u'] ++ fourHexDigits c.toNat
  else [c]

def stringText (s : String) : String :=
  String.ofList ('"' :: s.toList.flatMap escapeChar ++ ['"'])

def lineBreak (level : Nat) : String :=
  String.ofList ('\n' :: List.replicate (2 * level) ' ')

mutual

def writeAt (level : Nat) : Tree → String
  | .null => "null"
  | .flag true => "true"
  | .flag false => "false"
  | .integer n => toString n
  | .decimal digits => digits
  | .text s => stringText s
  | .list [] _ => "[]"
  | .list (t :: ts) _ =>
    "[" ++ lineBreak (level + 1) ++ writeAt (level + 1) t ++ writeItems level ts ++ "]"
  | .table [] _ => "\x7b\x7d"
  | .table ((key, t) :: entries) _ =>
    "\x7b" ++ lineBreak (level + 1) ++ stringText key ++ ": " ++ writeAt (level + 1) t ++
      writeEntries level entries ++ "\x7d"
  | .gap => ""

def writeItems (level : Nat) : List Tree → String
  | [] => lineBreak level
  | t :: ts => "," ++ lineBreak (level + 1) ++ writeAt (level + 1) t ++ writeItems level ts

def writeEntries (level : Nat) : List (String × Tree) → String
  | [] => lineBreak level
  | (key, t) :: entries =>
    "," ++ lineBreak (level + 1) ++ stringText key ++ ": " ++ writeAt (level + 1) t ++
      writeEntries level entries

end

def write (t : Tree) : String :=
  writeAt 0 t

end Facade.Json
