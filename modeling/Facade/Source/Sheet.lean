import Facade.Source.Fragment

/-!
This module contains sheets: source texts that are written line by line, each at the current level.
-/

namespace Facade.Source

/-- A text that is being written, and the level of its next line. -/
structure Sheet where
  level : Nat
  text : String

namespace Sheet

def empty : Sheet :=
  ⟨0, ""⟩

def line (text : String) (sheet : Sheet) : Sheet :=
  { sheet with text := sheet.text ++ Line.render ⟨sheet.level, text⟩ }

def blank (sheet : Sheet) : Sheet :=
  sheet.line ""

def indent (sheet : Sheet) : Sheet :=
  { sheet with level := sheet.level + 1 }

def dedent (sheet : Sheet) : Sheet :=
  { sheet with level := sheet.level - 1 }

def comment (text : String) (sheet : Sheet) : Sheet :=
  sheet.line ("// " ++ text)

def doc (lines : List String) (sheet : Sheet) : Sheet :=
  (docLines lines).foldl (fun sheet text => sheet.line text) sheet

def close (text : Option String) (sheet : Sheet) : Sheet :=
  match text with
  | some text => sheet.line text
  | none => sheet

mutual

def emitOne : Fragment → Sheet → Sheet
  | .line text, sheet => sheet.line text
  | .blank, sheet => sheet.blank
  | .block header body close, sheet => ((sheet.line header).indent.emit body).dedent.close close
  | .indent body, sheet => (sheet.indent.emit body).dedent
  | .doc lines, sheet => sheet.doc lines

def emit : List Fragment → Sheet → Sheet
  | [], sheet => sheet
  | f :: fs, sheet => (sheet.emitOne f).emit fs

end

end Sheet

end Facade.Source
