/-!
This module contains the values of a data format: what a file says once its spelling is set aside.
-/

namespace Facade.Data

/--
A value of a data format. A text that is broken in the middle still has a value: `gap` stands for
a value that could not be read, and a list or table that is not `whole` ends too early.
-/
inductive Tree where
  | null
  | flag (value : Bool)
  | integer (value : Int)
  | decimal (digits : String)
  | text (value : String)
  | list (items : List Tree) (whole : Bool)
  | table (entries : List (String × Tree)) (whole : Bool)
  | gap
  deriving Repr

namespace Tree

mutual

def depth : Tree → Nat
  | list items _ => depthOfItems items + 1
  | table entries _ => depthOfEntries entries + 1
  | _ => 1

def depthOfItems : List Tree → Nat
  | [] => 0
  | t :: ts => max t.depth (depthOfItems ts)

def depthOfEntries : List (String × Tree) → Nat
  | [] => 0
  | (_, t) :: entries => max t.depth (depthOfEntries entries)

end

def ofItems (items : List Tree) : Tree :=
  list items true

def ofEntries (entries : List (String × Tree)) : Tree :=
  table entries true

def ofStrings (strings : List String) : Tree :=
  ofItems (strings.map text)

/-- The given string, or `null` if there is none. -/
def ofString? : Option String → Tree
  | some s => text s
  | none => null

end Tree

end Facade.Data
