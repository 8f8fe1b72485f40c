import Facade.Data.Decode
import Facade.Json.Reader
import Facade.Text.Quoted

/-!
This module contains the texts for JSON values that are not what was asked for, with the places in
the text that they are about.
-/

namespace Facade.Json

open Facade.Data Facade.Text

/-- A text about a place of a JSON text, which is told as the number of bytes up to it. -/
structure Remark where
  text : String
  position : Nat

def Fault.remark (fault : Fault) : Remark :=
  ⟨fault.complaint.message, fault.position⟩

def Atom.description : Atom → String
  | null => "null"
  | flag b => s!"boolean `{b}`"
  | integer n => s!"integer `{n}`"
  | decimal digits => s!"floating point `{digits}`"
  | text s => "string " ++ quote s

def ticked (name : String) : String :=
  "`" ++ name ++ "`"

def alternatives : List String → String
  | [] => "nothing"
  | [a] => ticked a
  | [a, b] => ticked a ++ " or " ++ ticked b
  | names => "one of " ++ ", ".intercalate (names.map ticked)

namespace Node

def child? (index : Nat) : Node → Option Node
  | list _ items _ => items[index]?
  | table _ entries _ => entries[index]?.map (·.2.1)
  | _ => none

def follow : List Nat → Node → Node
  | [], node => node
  | index :: path, node =>
    match node.child? index with
    | some child => child.follow path
    | none => node

def start : Node → Nat
  | atom _ start _ => start
  | list start _ _ => start
  | table start _ _ => start
  | broken fault => fault.start

def ending : Node → Except Fault Nat
  | atom _ _ stop => .ok stop
  | list _ _ ending => ending
  | table _ _ ending => ending
  | broken fault => .error fault

def remarkAtEnd (text : String) (node : Node) : Remark :=
  match node.ending with
  | .ok stop => ⟨text, stop⟩
  | .error fault => fault.remark

def otherKind (expected : String) : Node → Remark
  | atom value _ stop => ⟨s!"invalid type: {value.description}, expected {expected}", stop⟩
  | list start _ _ => ⟨s!"invalid type: sequence, expected {expected}", start⟩
  | table start _ _ => ⟨s!"invalid type: map, expected {expected}", start⟩
  | broken fault => fault.remark

/-- The key of the entry at an index, and the number of bytes up to what follows its value. -/
def entry? (index : Nat) : Node → Option (Key × Nat)
  | table _ entries _ => entries[index]?.map fun (key, _, behind) => (key, behind)
  | _ => none

def remarkAtKey (text : String) (index : Nat) (node : Node) : Remark :=
  match node.entry? index with
  | some (key, _) => ⟨text, key.resting⟩
  | none => ⟨text, node.start⟩

end Node

def textFrom : List Char → Nat → List Char
  | [], _ => []
  | c :: cs, position => if position = 0 then c :: cs else textFrom cs (position - c.utf8Size)

def endsAt (text : List Char) (position : Nat) : Bool :=
  (textFrom text position).isEmpty

def remarkNoWord (text : List Char) : Node → Remark
  | .atom _ start _ => ⟨Complaint.expectedValue.message, start + 1⟩
  | .list start _ _ => ⟨Complaint.expectedValue.message, start + 1⟩
  | .table _ _ (.ok stop) => ⟨Complaint.expectedValue.message, stop⟩
  | .table _ _ (.error fault) =>
    match fault.complaint with
    | .endInObject => ⟨Complaint.endInValue.message, fault.position⟩
    | _ => fault.remark
  | .broken fault =>
    match fault.complaint, textFrom text fault.start with
    | .expectedColon, _ => fault.remark
    | _, [] => fault.remark
    | _, '"' :: _ => fault.remark
    | _, _ :: _ => ⟨Complaint.expectedValue.message, fault.start + 1⟩

def remarkOn (text : List Char) (node : Node) : Problem → Remark
  | .otherKind expected => node.otherKind expected
  | .noWord => remarkNoWord text node
  | .unknownWord word choices =>
    let message := s!"unknown variant `{word}`, expected {alternatives choices}"
    match node.entry? 0 with
    | some (key, _) => ⟨message, key.stop⟩
    | none => node.remarkAtEnd message
  | .crowded =>
    match node.entry? 0 with
    | some (_, behind) =>
      if endsAt text behind then ⟨Complaint.endInObject.message, behind⟩
      else ⟨Complaint.expectedValue.message, behind⟩
    | none => node.remarkAtEnd Complaint.expectedValue.message
  | .unknownField index name known =>
    node.remarkAtKey s!"unknown field `{name}`, expected {alternatives known}" index
  | .repeatedField index name => node.remarkAtKey s!"duplicate field `{name}`" index
  | .missingField name => node.remarkAtEnd s!"missing field `{name}`"
  | .tooShort length title fields =>
    let elements := if fields = 1 then "1 element" else s!"{fields} elements"
    node.remarkAtEnd s!"invalid length {length}, expected struct {title} with {elements}"
  | .surplus index =>
    match node.child? index, node.ending with
    | some child, _ => ⟨Complaint.trailingCharacters.message, child.start + 1⟩
    | none, .error fault =>
      match fault.complaint with
      | .endInList => fault.remark
      | .trailingComma => fault.remark
      | _ => ⟨Complaint.trailingCharacters.message, fault.position⟩
    | none, .ok stop => ⟨Complaint.trailingCharacters.message, stop⟩
  | .gap => node.remarkAtEnd Complaint.expectedValue.message

def lineColumn (position : Nat) : (line lineStart here : Nat) → List Char → Nat × Nat
  | line, lineStart, _, [] => (line, position - lineStart)
  | line, lineStart, here, c :: cs =>
    if position ≤ here then (line, position - lineStart)
    else if c = '\n' then lineColumn position (line + 1) (here + 1) (here + 1) cs
    else lineColumn position line lineStart (here + c.utf8Size) cs

/-- A remark with the line and the column of its place. -/
structure Located where
  text : String
  line : Nat
  column : Nat

/-- A remark with its place in a text. Lines count from one, and columns are the bytes of the line. -/
def Remark.locate (text : List Char) (remark : Remark) : Located :=
  let (line, column) := lineColumn remark.position 1 0 0 text
  ⟨s!"{remark.text} at line {line} column {column}", line, column⟩

/-- Reads a value out of a JSON text. -/
def decodeText (decode : Tree → Decode α) (text : String) : Except Located α :=
  let document := Document.ofText text
  match decode document.node.tree with
  | .error mismatch =>
    .error <| (remarkOn text.toList (document.node.follow mismatch.path) mismatch.problem).locate
      text.toList
  | .ok a =>
    match document.surplus? with
    | some fault => .error (fault.remark.locate text.toList)
    | none => .ok a

end Facade.Json
