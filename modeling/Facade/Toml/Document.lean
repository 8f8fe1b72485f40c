import Facade.Data.Tree

/-!
This module contains TOML documents as they grow line by line: tables that are opened by a header
or by a dotted key, and the rules that keep a table from being defined twice.
-/

namespace Facade.Toml

open Facade.Data

/-- How a table came to be. -/
inductive Origin where
  /-- It stands on the way to a table with a header. -/
  | passed
  /-- It has a header of its own. -/
  | opened
  /-- It stands on the way to a dotted key. -/
  | dotted
  deriving DecidableEq

/-- What a key of a document stands for. -/
inductive Item where
  /-- A value behind an equals sign. Nothing can be added to it. -/
  | value (tree : Tree)
  | table (origin : Origin) (entries : List (String × Item))
  /-- The tables of a repeated header, the last one in front. -/
  | tables (newest : List (String × Item)) (older : List (List (String × Item)))

abbrev Entries := List (String × Item)

namespace Entries

def replace (key : String) (item : Item) (entries : Entries) : Entries :=
  entries.map fun (k, i) => if k = key then (k, item) else (k, i)

def add (key : String) (item : Item) (entries : Entries) : Entries :=
  entries ++ [(key, item)]

/-- Changes the table that a path leads to. The tables on the way are made if they are missing. -/
def change (f : Entries → Option Entries) : (path : List String) → Entries → Option Entries
  | [], entries => f entries
  | key :: path, entries =>
    match entries.lookup key with
    | none => do return entries.add key (.table .passed (← change f path []))
    | some (.table origin inner) => do
      return entries.replace key (.table origin (← change f path inner))
    | some (.tables newest older) => do
      return entries.replace key (.tables (← change f path newest) older)
    | some (.value _) => none

def openTable (key : String) (entries : Entries) : Option Entries :=
  match entries.lookup key with
  | none => some (entries.add key (.table .opened []))
  -- a table that was only passed on the way may still get a header
  | some (.table .passed inner) => some (entries.replace key (.table .opened inner))
  | some _ => none

def openNext (key : String) (entries : Entries) : Option Entries :=
  match entries.lookup key with
  | none => some (entries.add key (.tables [] []))
  | some (.tables newest older) => some (entries.replace key (.tables [] (newest :: older)))
  | some _ => none

def put (value : Tree) : (path : List String) → Entries → Option Entries
  | [], _ => none
  | [key], entries =>
    match entries.lookup key with
    | none => some (entries.add key (.value value))
    | some _ => none
  | key :: path, entries =>
    match entries.lookup key with
    | none => do return entries.add key (.table .dotted (← put value path []))
    -- dotted keys add to no table that has a header
    | some (.table .dotted inner) => do
      return entries.replace key (.table .dotted (← put value path inner))
    | some _ => none

end Entries

mutual

def Item.tree : Item → Tree
  | .value tree => tree
  | .table _ entries => .ofEntries (entryTrees entries)
  | .tables newest older => .ofItems (tableTrees older [.ofEntries (entryTrees newest)])

def entryTrees : List (String × Item) → List (String × Tree)
  | [] => []
  | (key, item) :: entries => (key, item.tree) :: entryTrees entries

def tableTrees : List (List (String × Item)) → List Tree → List Tree
  | [], trees => trees
  | entries :: older, trees => tableTrees older (.ofEntries (entryTrees entries) :: trees)

end

/-- A document that is being read: its tables, and the path to the one that keys go into. -/
structure Document where
  root : Entries
  current : List String

namespace Document

def empty : Document :=
  ⟨[], []⟩

def header? (path : List String) (repeated : Bool) (document : Document) : Option Document := do
  let key ← path.getLast?
  let opened := if repeated then Entries.openNext key else Entries.openTable key
  return ⟨← document.root.change opened path.dropLast, path⟩

def put? (path : List String) (value : Tree) (document : Document) : Option Document := do
  let root ← document.root.change (Entries.put value path) document.current
  return { document with root }

def tree (document : Document) : Tree :=
  .ofEntries (entryTrees document.root)

end Document

end Facade.Toml
