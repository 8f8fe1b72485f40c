import Facade.Scala.Name

/-!
This module contains pools of names: each gives out legal names, and every name only once.
-/

namespace Facade.Scala

/-- The names that are taken. -/
structure NamePool where
  taken : List String

namespace NamePool

def empty : NamePool :=
  ⟨[]⟩

def reserve (names : List String) (pool : NamePool) : NamePool :=
  ⟨names ++ pool.taken⟩

def members : NamePool :=
  empty.reserve reservedMembers

/-- The greatest number that is put behind a name to tell it from others. -/
def lastOrdinal : Nat := 99

def variants (base : String) : List String :=
  base :: (List.range' 2 (lastOrdinal - 1)).map fun n => base ++ toString n

/-- The first of some names that is free and legal, together with what is written for it. -/
def firstFree? (pool : NamePool) (names : List String) : Option (String × String) :=
  names.findSome? fun name =>
    if pool.taken.contains name then none else (safeName? name).map fun safe => (name, safe)

/-- Gives out a name: the given one, or if that is taken the same with the least number that will do. -/
def claim (base : String) (pool : NamePool) : Except Refusal (String × NamePool) :=
  -- a name that cannot be written is refused, even if it could be with a number behind it
  match safeName? base with
  | none => .error (.clash base .illegal)
  | some _ =>
    match pool.firstFree? (variants base) with
    | some (name, safe) => .ok (safe, pool.reserve [name])
    | none => .error (.clash base (.exhausted (base ++ toString lastOrdinal)))

/-- What a pool may be asked to do. -/
inductive Call where
  | reserve (names : List String)
  | claim (base : String)
  deriving DecidableEq, Repr

/-- What a pool has done when it was asked. -/
inductive Event where
  | reserved (names : List String)
  | given (base name : String)
  | refused (base : String) (refusal : Refusal)
  deriving DecidableEq, Repr

/-- Answers a call. A pool that has no name to give stays as it is. -/
def answer (pool : NamePool) : Call → Event × NamePool
  | .reserve names => (.reserved names, pool.reserve names)
  | .claim base =>
    match pool.claim base with
    | .ok (name, rest) => (.given base name, rest)
    | .error refusal => (.refused base refusal, pool)

/-- Answers calls one after the other. -/
def run : NamePool → List Call → List Event × NamePool
  | pool, [] => ([], pool)
  | pool, call :: calls =>
    let (event, rest) := pool.answer call
    let (events, last) := rest.run calls
    (event :: events, last)

end NamePool

end Facade.Scala
