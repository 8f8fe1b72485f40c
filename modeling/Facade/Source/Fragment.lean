/-!
This module contains fragments of source code and the lines that they are written as.
-/

namespace Facade.Source

/-- A part of a source text that takes up whole lines. -/
inductive Fragment where
  | line (text : String)
  | blank
  /-- A line, some indented fragments, and possibly a line at the end. -/
  | block (header : String) (body : List Fragment) (close : Option String)
  | indent (body : List Fragment)
  /-- A documentation comment. -/
  | doc (lines : List String)
  deriving Repr

namespace Fragment

def braced (header : String) (body : List Fragment) : Fragment :=
  block (header ++ " \x7b") body (some "\x7d")

end Fragment

/-- A line of a source text: its text, and how many levels it is indented. -/
structure Line where
  level : Nat
  text : String
  deriving DecidableEq, Repr

namespace Line

/-- A line as it is written. An empty line is not indented. -/
def render (l : Line) : String :=
  if l.text.isEmpty then "\n"
  else String.ofList (List.replicate (2 * l.level) ' ') ++ l.text ++ "\n"

def renderAll (lines : List Line) : String :=
  String.join (lines.map render)

end Line

def docLine (text : String) : String :=
  if text.isEmpty then " *" else " * " ++ text

/-- The lines of a documentation comment. A single one stands between the marks of the comment. -/
def docLines : List String → List String
  | [] => []
  | [text] => ["/** " ++ text ++ " */"]
  | texts => "/**" :: texts.map docLine ++ [" */"]

namespace Fragment

mutual

def lines (level : Nat) : Fragment → List Line
  | line text => [⟨level, text⟩]
  | blank => [⟨level, ""⟩]
  | block header body close =>
    ⟨level, header⟩ :: allLines (level + 1) body ++ close.toList.map (⟨level, ·⟩)
  | indent body => allLines (level + 1) body
  | doc texts => (docLines texts).map (⟨level, ·⟩)

/-- The lines of several fragments at a level. -/
def allLines (level : Nat) : List Fragment → List Line
  | [] => []
  | f :: fs => f.lines level ++ allLines level fs

end

def renderAll (level : Nat) (fragments : List Fragment) : String :=
  Line.renderAll (allLines level fragments)

end Fragment

end Facade.Source
