/-!
This module contains the imports of a source file. Packages stay in the order in which they came,
and the symbols of a package are sorted.
-/

namespace Facade.Source

/-- The packages that are imported from, and the symbols that are imported from each. -/
abbrev ImportTable := List (String × List String)

namespace ImportTable

/-- The symbol that stands for all symbols of a package. -/
def wildcard : String := "_"

def insertSymbol (symbol : String) : List String → List String
  | [] => [symbol]
  | s :: ss =>
    if symbol < s then symbol :: s :: ss
    else if symbol = s then s :: ss
    else s :: insertSymbol symbol ss

def add (package symbol : String) : ImportTable → ImportTable
  | [] => [(package, [symbol])]
  | (p, symbols) :: rest =>
    if p = package then (p, insertSymbol symbol symbols) :: rest
    else (p, symbols) :: add package symbol rest

def addAll (package : String) (table : ImportTable) : ImportTable :=
  table.add package wildcard

def merge (table other : ImportTable) : ImportTable :=
  other.foldl
    (fun table (package, symbols) => symbols.foldl (fun table s => table.add package s) table) table

def hasPackage (package : String) (table : ImportTable) : Bool :=
  table.any (·.1 == package)

def hasSymbol (package symbol : String) (table : ImportTable) : Bool :=
  match table.lookup package with
  | some symbols => symbols.contains symbol || symbols.contains wildcard
  | none => false

end ImportTable

end Facade.Source
