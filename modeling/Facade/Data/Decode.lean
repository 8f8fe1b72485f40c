import Facade.Data.Tree

/-!
This module contains the reading of single values out of a tree, and the reasons for which a tree
may not hold what is asked of it.
-/

namespace Facade.Data

/-- A reason for which a tree does not hold a value of the kind asked for. -/
inductive Problem where
  /-- The tree is of another kind than the one named. -/
  | otherKind (expected : String)
  /-- A choice of words is neither a word nor a table that starts with one. -/
  | noWord
  /-- A word is none of the choices. -/
  | unknownWord (word : String) (choices : List String)
  /-- A choice that is written as a table has something behind its first entry. -/
  | crowded
  /-- The entry at `index` has a key that the record does not know. -/
  | unknownField (index : Nat) (name : String) (known : List String)
  /-- The entry at `index` has the key of an entry before it. -/
  | repeatedField (index : Nat) (name : String)
  /-- A required field is not there. -/
  | missingField (name : String)
  /-- A record that is written as a list ends before a required field. -/
  | tooShort (length : Nat) (title : String) (fields : Nat)
  /-- A record that is written as a list goes on at `index`, behind its last field. -/
  | surplus (index : Nat)
  /-- The tree could not be read to its end. -/
  | gap
  deriving Repr

/-- A reason together with the tree it is about: the positions that lead to it from the root. -/
structure Mismatch where
  path : List Nat
  problem : Problem
  deriving Repr

/-- The outcome of reading a value out of a tree. -/
abbrev Decode := Except Mismatch

namespace Decode

def fail (problem : Problem) : Decode α :=
  .error ⟨[], problem⟩

/-- A reading of the child at `index`, whose problems are told from the parent. -/
def within (index : Nat) : Decode α → Decode α
  | .ok a => .ok a
  | .error m => .error { m with path := index :: m.path }

def otherKind (expected : String) : Tree → Decode α
  | .gap => fail .gap
  | _ => fail (.otherKind expected)

def text : Tree → Decode String
  | .text s => .ok s
  | t => otherKind "a string" t

def text? : Tree → Decode (Option String)
  | .null => .ok none
  | .text s => .ok (some s)
  | t => otherKind "a string" t

def flag : Tree → Decode Bool
  | .flag b => .ok b
  | t => otherKind "a boolean" t

/-- The least number that no machine word of 64 bits holds. -/
def wordBound : Int := 18446744073709551616

def count : Tree → Decode Nat
  | .integer n => if 0 ≤ n && n < wordBound then .ok n.toNat else fail (.otherKind "usize")
  | t => otherKind "usize" t

/-- The items of a list from the one at `index` on. -/
def items (item : Tree → Decode α) : (index : Nat) → List Tree → Decode (List α)
  | _, [] => .ok []
  | index, t :: ts => do
    let a ← within index (item t)
    let rest ← items item (index + 1) ts
    return a :: rest

def list (item : Tree → Decode α) : Tree → Decode (List α)
  | .list ts whole => do
    let values ← items item 0 ts
    if whole then return values else fail .gap
  | t => otherKind "a sequence" t

/-- The entries of a table of strings from the one at `index` on. -/
def stringEntries : (index : Nat) → List (String × Tree) → Decode (List (String × String))
  | _, [] => .ok []
  | index, (key, t) :: entries => do
    let value ← within index (text t)
    let rest ← stringEntries (index + 1) entries
    return (key, value) :: rest

def strings : Tree → Decode (List (String × String))
  | .table entries whole => do
    let values ← stringEntries 0 entries
    if whole then return values else fail .gap
  | t => otherKind "a map" t

/-- A data format. It decides in which ways a record or a choice of words may be spelled. -/
inductive Format where
  | json
  | toml
  deriving DecidableEq, Repr

/-- Whether what stands behind the last field of a record that is written as a list is ignored. -/
def Format.ignoresSurplus : Format → Bool
  | json => false
  | toml => true

/-- Whether a tree stands for no content behind a word: `null`, or in a format without it, emptiness. -/
def Format.noContent (format : Format) : Tree → Decode Unit
  | .null => if format = .json then .ok () else fail (.otherKind "unit")
  | .list [] true => if format = .toml then .ok () else fail (.otherKind "unit")
  | .table [] true => if format = .toml then .ok () else fail (.otherKind "unit")
  | t => otherKind "unit" t

def choose (choices : List (String × α)) (word : String) : Decode α :=
  match choices.lookup word with
  | some a => .ok a
  | none => fail (.unknownWord word (choices.map Prod.fst))

def word (format : Format) (choices : List (String × α)) : Tree → Decode α
  | .text s => choose choices s
  | .table ((key, t) :: entries) whole => do
    let a ← choose choices key
    within 0 (format.noContent t)
    if entries.isEmpty && whole then return a else fail .crowded
  | _ => fail .noWord

end Decode

end Facade.Data
