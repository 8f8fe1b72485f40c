/-!
This module contains dictionaries: values under strings, in ascending order of the strings.
-/

namespace Facade.Data

/-- Values under strings, in ascending order of the strings. -/
abbrev Dictionary (α : Type) := List (String × α)

namespace Dictionary

def get? (key : String) (dictionary : Dictionary α) : Option α :=
  dictionary.lookup key

def has (key : String) (dictionary : Dictionary α) : Bool :=
  (dictionary.get? key).isSome

def insert (key : String) (value : α) : Dictionary α → Dictionary α
  | [] => [(key, value)]
  | (k, v) :: rest =>
    if key < k then (key, value) :: (k, v) :: rest
    else if key = k then (key, value) :: rest
    else (k, v) :: insert key value rest

def erase (key : String) (dictionary : Dictionary α) : Dictionary α :=
  dictionary.filter (·.1 != key)

/-- The dictionary of some values under keys, of which the last one counts. -/
def ofPairs (pairs : List (String × α)) : Dictionary α :=
  pairs.foldl (fun dictionary (key, value) => dictionary.insert key value) []

def values (dictionary : Dictionary α) : List α :=
  dictionary.map Prod.snd

end Dictionary

end Facade.Data
