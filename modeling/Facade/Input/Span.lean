import Facade.Text.Blank
import Facade.Text.Pieces

/-!
This module contains the places in a text that a message can point at, as bytes.
-/

namespace Facade.Input

open Facade.Text

/-- A part of a text: the byte it starts at, and its number of bytes. -/
structure Span where
  offset : Nat
  length : Nat
  deriving DecidableEq, Repr

def startsWithEquals (text : List Char) : Bool :=
  match trimStart text with
  | '=' :: _ => true
  | _ => false

/-- Whether a line that starts with `key` gives it a value. -/
def assigns (key line : List Char) : Bool :=
  (dropStart? key line).any startsWithEquals

def spellings (key : List Char) : List (List Char) :=
  [key, '"' :: key ++ ['"']]

/-- The span of the key in the first of the lines that gives it a value. `before` bytes precede them. -/
def keySpanIn (key : List Char) (before : Nat) : List (List Char) → Option Span
  | [] => none
  | line :: lines =>
    let body := trimStart line
    match (spellings key).find? (assigns · body) with
    | some spelling =>
      some ⟨before + (byteLength line - byteLength body), byteLength spelling⟩
    | none => keySpanIn key (before + byteLength line) lines

/-- The span of a key in the first line of a text that gives it a value. -/
def keySpan? (text key : String) : Option Span :=
  keySpanIn key.toList 0 (linesWithEnds text.toList)

/--
The byte at a line and column of a text, both counted from one. A column of zero stands for the
start of the line. There is none beyond the end of the text.
-/
def offsetAt? (text : String) (line column : Nat) : Option Nat :=
  if line = 0 then none
  else
    let lineStart := byteLength ((linesWithEnds text.toList).take (line - 1)).flatten
    let offset := lineStart + (column - 1)
    if offset < byteLength text.toList then some offset else none

end Facade.Input
