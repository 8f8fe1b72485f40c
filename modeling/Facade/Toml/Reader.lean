import Facade.Toml.Document
import Facade.Toml.Quoted

/-!
This module contains the reading of TOML texts.
-/

namespace Facade.Toml

open Facade.Data

def isKeyChar (c : Char) : Bool :=
  isDigit c || ('a' ≤ c && c ≤ 'z') || ('A' ≤ c && c ≤ 'Z') || c == '_' || c == '-'

def readKey (text : List Char) : Option (String × List Char) :=
  match text with
  | '"' :: _ => readLineString text
  | '\'' :: _ => readLineString text
  | _ =>
    let key := text.takeWhile isKeyChar
    if key.isEmpty then none else some (String.ofList key, text.dropWhile isKeyChar)

def readPath : (fuel : Nat) → List Char → Option (List String × List Char)
  | 0, _ => none
  | fuel + 1, text => do
    let (key, rest) ← readKey (text.dropWhile isSpace)
    match rest.dropWhile isSpace with
    | '.' :: rest => do
      let (path, rest) ← readPath fuel rest
      return (key :: path, rest)
    | rest => return ([key], rest)

/-- The rest of a text behind a comment, if it starts with one. A comment ends before the line end. -/
def dropComment? (text : List Char) : Option (List Char) :=
  match text with
  | '#' :: rest =>
    let behind := rest.dropWhile fun c => !isControl c
    if behind.isEmpty || (dropNewline? behind).isSome then some behind else none
  | _ => some text

def dropFill? : (fuel : Nat) → List Char → Option (List Char)
  | 0, _ => none
  | fuel + 1, text => do
    let rest ← dropComment? (text.dropWhile isSpace)
    match dropNewline? rest with
    | some rest => dropFill? fuel rest
    | none => some rest

def dropGap? (text : List Char) : Option (List Char) :=
  dropFill? (text.length + 1) text

/-- The greatest number of lists and tables that may be nested in each other behind a key. -/
def depthLimit : Nat := 80

/-- The rest of a text behind what may stand around an equals sign: line ends only inside of braces. -/
def dropAround? (braced : Bool) (text : List Char) : Option (List Char) :=
  if braced then dropGap? text else some (text.dropWhile isSpace)

mutual

/-- Reads a value with room for so many nested lists and tables. `fuel` bounds the values read. -/
def readValue : (fuel room : Nat) → List Char → Option (Tree × List Char)
  | 0, _, _ => none
  | fuel + 1, room, text =>
    match text, room with
    | '"' :: _, _ => (readString text).map fun (s, rest) => (.text s, rest)
    | '\'' :: _, _ => (readString text).map fun (s, rest) => (.text s, rest)
    | '[' :: _, 0 => none
    | '\x7b' :: _, 0 => none
    | '[' :: rest, room + 1 =>
      (readItems fuel room rest).map fun (items, rest) => (.ofItems items, rest)
    | '\x7b' :: rest, room + 1 =>
      (readEntries fuel room .empty rest).map fun (document, rest) => (document.tree, rest)
    | _, _ =>
      let (word, rest) := cutScalar text
      (scalar? word).map fun t => (t, rest)

/-- Reads the items of a list up to its closing bracket. A comma may stand behind the last one. -/
def readItems : (fuel room : Nat) → List Char → Option (List Tree × List Char)
  | 0, _, _ => none
  | fuel + 1, room, text => do
    match ← dropGap? text with
    | ']' :: rest => return ([], rest)
    | text =>
      let (item, rest) ← readValue fuel room text
      match ← dropGap? rest with
      | ',' :: rest => do
        let (items, rest) ← readItems fuel room rest
        return (item :: items, rest)
      | ']' :: rest => return ([item], rest)
      | _ => none

/-- Reads the entries of a table up to its closing brace. A comma may stand behind the last one. -/
def readEntries : (fuel room : Nat) → Document → List Char → Option (Document × List Char)
  | 0, _, _, _ => none
  | fuel + 1, room, document, text => do
    match ← dropGap? text with
    | '\x7d' :: rest => return (document, rest)
    | text =>
      let (document, rest) ← readEntry fuel room true document text
      match ← dropGap? rest with
      | ',' :: rest => readEntries fuel room document rest
      | '\x7d' :: rest => return (document, rest)
      | _ => none

def readEntry : (fuel room : Nat) → (braced : Bool) → Document → List Char →
    Option (Document × List Char)
  | 0, _, _, _, _ => none
  | fuel + 1, room, braced, document, text => do
    let (path, rest) ← readPath (text.length + 1) text
    match ← dropAround? braced rest with
    | '=' :: rest =>
      let (value, rest) ← readValue fuel room (← dropAround? braced rest)
      return (← document.put? path value, rest)
    | _ => none

end

def readHeader (document : Document) (text : List Char) : Option (Document × List Char) :=
  match text with
  | '[' :: rest => do
    let (path, rest) ← readPath (rest.length + 1) rest
    match rest with
    | ']' :: ']' :: rest => return (← document.header? path true, rest)
    | _ => none
  | _ => do
    let (path, rest) ← readPath (text.length + 1) text
    match rest with
    | ']' :: rest => return (← document.header? path false, rest)
    | _ => none

def readLines : (fuel : Nat) → Document → List Char → Option Document
  | 0, _, _ => none
  | fuel + 1, document, text => do
    match ← dropGap? text with
    | [] => return document
    | text =>
      let (document, rest) ←
        match text with
        | '[' :: rest => readHeader document rest
        | _ => readEntry (3 * text.length + 3) depthLimit false document text
      let rest ← dropComment? (rest.dropWhile isSpace)
      match rest with
      | [] => return document
      | _ => readLines fuel document (← dropNewline? rest)

/-- The value of a TOML text. A byte order mark at its start is no part of it. -/
def parse (text : String) : Option Tree :=
  let chars :=
    match text.toList with
    | '\uFEFF' :: rest => rest
    | chars => chars
  (readLines (chars.length + 1) .empty chars).map Document.tree

end Facade.Toml
