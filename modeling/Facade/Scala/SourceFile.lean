import Facade.Scala.Definition
import Facade.Scala.Name
import Facade.Source.ImportTable
import Facade.Source.Sheet

/-!
This module contains Scala source files.
-/

namespace Facade.Scala

open Source

structure SourceFile where
  /-- The package of the file. It may be empty. -/
  package : String
  /-- The class that the file was generated from. -/
  origin : Option String := none
  imports : ImportTable := []
  body : List (List Fragment) := []

def generatedHeader : String := "// Code generated by wrapgen. DO NOT EDIT."

def importLine (package : String) (symbols : List String) : String :=
  if symbols.contains ImportTable.wildcard then "import " ++ package ++ "._"
  else
    match symbols with
    | [single] => "import " ++ package ++ "." ++ single
    | _ => "import " ++ package ++ ".\x7b" ++ ", ".intercalate symbols ++ "\x7d"

namespace SourceFile

/-- The fragments of a source file. -/
def fragments (file : SourceFile) : List Fragment :=
  let origin := file.origin.toList.map fun className => .line ("// Source: " ++ className)
  let package :=
    if file.package.isEmpty then []
    else [.blank, .line ("package " ++ escapePath file.package)]
  let imports :=
    if file.imports.isEmpty then []
    else .blank :: file.imports.map fun (package, symbols) => .line (importLine package symbols)
  [.line generatedHeader] ++ origin ++ package ++ imports ++
    file.body.flatMap fun group => .blank :: group

def render (file : SourceFile) : String :=
  (Sheet.empty.emit file.fragments).text

end SourceFile

end Facade.Scala
