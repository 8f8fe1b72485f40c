import Facade.Data.Decode

/-!
This module contains record types as data formats see them: a shape lists the fields of a record,
and from it follow both how the record is written and how it is read. A record is written as a
table, and read from a table in any order or from the list of its fields. Whether such a list may go
on behind the last field depends on the format.
-/

namespace Facade.Data

/-- A field of a record: how it is put into the record, and what is written for it. -/
structure Slot (α : Type) where
  name : String
  required : Bool
  put : Tree → α → Decode α
  /-- The value of the field in a record. A field that is left out has none. -/
  value? : α → Option Tree

/-- The type of a record: its name, its value before any field is put in, and its fields. -/
structure Shape (α : Type) where
  title : String
  blank : α
  slots : List (Slot α)

namespace Shape

def write (shape : Shape α) (a : α) : Tree :=
  .ofEntries <| shape.slots.filterMap fun slot => (slot.value? a).map (slot.name, ·)

/-- Puts in the entries of a table from the one at `index` on, after those with the keys `seen`. -/
def readEntries (slots : List (Slot α)) (index : Nat) (seen : List String) (a : α) :
    List (String × Tree) → Decode (α × List String)
  | [] => .ok (a, seen)
  | (key, t) :: entries =>
    match slots.find? (·.name == key) with
    | none => .fail (.unknownField index key (slots.map Slot.name))
    | some slot =>
      if seen.contains key then .fail (.repeatedField index key)
      else do
        let a ← Decode.within index (slot.put t a)
        readEntries slots (index + 1) (key :: seen) a entries

/-- Puts in the items of a list from the one at `index` on, each into the next of the slots. -/
def readItems (format : Decode.Format) (title : String) (fields : Nat) (whole : Bool) (index : Nat)
    (a : α) : List (Slot α) → List Tree → Decode α
  | [], [] => if whole then .ok a else .fail (.surplus index)
  | [], _ :: _ => if format.ignoresSurplus then .ok a else .fail (.surplus index)
  | slot :: slots, [] =>
    if !whole then .fail .gap
    else if slot.required then .fail (.tooShort index title fields)
    else readItems format title fields whole (index + 1) a slots []
  | slot :: slots, t :: ts => do
    let a ← Decode.within index (slot.put t a)
    readItems format title fields whole (index + 1) a slots ts

/-- The first required field that is not among the keys `seen`. -/
def missing? (slots : List (Slot α)) (seen : List String) : Option String :=
  (slots.find? fun slot => slot.required && !seen.contains slot.name).map Slot.name

/-- A record, from a table or from a list. -/
def read (shape : Shape α) (format : Decode.Format) : Tree → Decode α
  | .table entries whole => do
    let (a, seen) ← readEntries shape.slots 0 [] shape.blank entries
    if !whole then .fail .gap
    else
      match missing? shape.slots seen with
      | some name => .fail (.missingField name)
      | none => return a
  | .list ts whole =>
    readItems format shape.title shape.slots.length whole 0 shape.blank shape.slots ts
  | t => .otherKind ("struct " ++ shape.title) t

end Shape

end Facade.Data
