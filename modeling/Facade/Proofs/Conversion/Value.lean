import Facade.Host.Scalar
import Mathlib.Data.Finset.Image
import Mathlib.Data.List.Nodup

/-!
This module contains the values that conversions go between: those of host types, those of the types
of wrappers, and the views and iterators on the way from one to the other.
-/

namespace Facade.Scala

open Host

/-- What conversions do not look into, the same on both sides of a conversion or behind a wrapper. -/
structure World where
  scalar : Scalar → Type
  /-- The values of a type that settings give for a host type. -/
  external : String → Type
  /-- The constants of the host behind the wrapper of an enumeration. -/
  constant : String → Type
  /-- The objects of the host behind the wrapper of a class. -/
  object : String → Type
  scalarEq : ∀ s, DecidableEq (scalar s)
  externalEq : ∀ expression, DecidableEq (external expression)
  constantEq : ∀ name, DecidableEq (constant name)
  objectEq : ∀ name, DecidableEq (object name)

/-- An object around a value. Two of them are equal if and only if their values are. -/
structure Holder (α : Type) where
  held : α
  deriving DecidableEq

def holderEquiv {α : Type} : α ≃ Holder α where
  toFun := Holder.mk
  invFun := Holder.held
  left_inv _ := rfl
  right_inv _ := rfl

/-- Sets with the elements of other sets, each as what it corresponds to. -/
def imageEquiv {α β : Type} [DecidableEq α] [DecidableEq β] (e : α ≃ β) : Finset α ≃ Finset β where
  toFun := Finset.image e
  invFun := Finset.image e.symm
  left_inv s := by rw [Finset.image_image, e.symm_comp_self, Finset.image_id]
  right_inv s := by rw [Finset.image_image, e.self_comp_symm, Finset.image_id]

/-- The entries of a map in their order, with one entry for a key. -/
@[ext]
structure Entries (κ ν : Type) where
  list : List (κ × ν)
  nodup : (list.map Prod.fst).Nodup
  deriving DecidableEq

namespace Entries

section

variable {κ ν : Type} [DecidableEq κ]

/-- The entries with a value under a key, in the place of the key if it is there, or else last. -/
def put (key : κ) (value : ν) : List (κ × ν) → List (κ × ν)
  | [] => [(key, value)]
  | (k, v) :: rest => if k = key then (key, value) :: rest else (k, v) :: put key value rest

theorem put_of_not_mem {key : κ} {value : ν} {list : List (κ × ν)}
    (h : key ∉ list.map Prod.fst) : put key value list = list ++ [(key, value)] := by
  induction list with
  | nil => rfl
  | cons entry list ih =>
    rw [List.map_cons, List.mem_cons, not_or] at h
    rw [put, if_neg (Ne.symm h.1), ih h.2, List.cons_append]

theorem mem_keys_put {key k : κ} {value : ν} {list : List (κ × ν)} :
    k ∈ (put key value list).map Prod.fst ↔ k = key ∨ k ∈ list.map Prod.fst := by
  induction list with
  | nil => simp [put]
  | cons entry list ih =>
    rw [put]
    split
    . next heq => simp [heq]
    . rw [List.map_cons, List.mem_cons, ih, List.map_cons, List.mem_cons]
      exact or_left_comm

theorem nodup_put {list : List (κ × ν)} (h : (list.map Prod.fst).Nodup) (key : κ) (value : ν) :
    ((put key value list).map Prod.fst).Nodup := by
  induction list with
  | nil => simp [put]
  | cons entry list ih =>
    rw [List.map_cons, List.nodup_cons] at h
    rw [put]
    split
    . next heq =>
      rw [List.map_cons, List.nodup_cons, ← heq]
      exact h
    . next hne =>
      rw [List.map_cons, List.nodup_cons, mem_keys_put, not_or]
      exact ⟨⟨hne, h.1⟩, ih h.2⟩

theorem nodup_foldl_put (list pairs : List (κ × ν)) (h : (list.map Prod.fst).Nodup) :
    ((pairs.foldl (fun list pair => put pair.1 pair.2 list) list).map Prod.fst).Nodup := by
  induction pairs generalizing list with
  | nil => exact h
  | cons pair pairs ih => exact ih _ (nodup_put h pair.1 pair.2)

theorem foldl_put {list pairs : List (κ × ν)} (h : ((list ++ pairs).map Prod.fst).Nodup) :
    pairs.foldl (fun list pair => put pair.1 pair.2 list) list = list ++ pairs := by
  induction pairs generalizing list with
  | nil => rw [List.foldl_nil, List.append_nil]
  | cons pair pairs ih =>
    -- a key that is new goes to the end
    have hnew : pair.1 ∉ list.map Prod.fst := by
      rw [List.map_append, List.nodup_append] at h
      intro hmem
      exact h.2.2 _ hmem _ List.mem_cons_self rfl
    rw [List.append_cons] at h
    rw [List.foldl_cons, put_of_not_mem hnew, ih h, ← List.append_cons]

/-- The map of some pairs. The last value under a key counts. -/
def ofPairs (pairs : List (κ × ν)) : Entries κ ν where
  list := pairs.foldl (fun list pair => put pair.1 pair.2 list) []
  nodup := nodup_foldl_put [] pairs List.nodup_nil

theorem list_ofPairs {pairs : List (κ × ν)} (h : (pairs.map Prod.fst).Nodup) :
    (ofPairs pairs).list = pairs :=
  foldl_put h

theorem ofPairs_map_id (entries : Entries κ ν) : ofPairs (entries.list.map id) = entries := by
  ext1
  rw [List.map_id, list_ofPairs entries.nodup]

end

variable {κ ν κ' ν' : Type} [DecidableEq κ']

def map (f : κ → κ') (g : ν → ν') (entries : Entries κ ν) : Entries κ' ν' :=
  ofPairs (entries.list.map (Prod.map f g))

theorem map_id [DecidableEq κ] (entries : Entries κ ν) : entries.map id id = entries :=
  ofPairs_map_id entries

theorem list_map {f : κ → κ'} (hf : f.Injective) (g : ν → ν') (entries : Entries κ ν) :
    (entries.map f g).list = entries.list.map (Prod.map f g) := by
  apply list_ofPairs
  rw [List.map_map]
  have hfst : Prod.fst ∘ Prod.map f g = f ∘ Prod.fst := rfl
  rw [hfst, ← List.map_map]
  exact entries.nodup.map hf

theorem map_map_of_leftInverse [DecidableEq κ] {f : κ → κ'} {f' : κ' → κ} {g : ν → ν'} {g' : ν' → ν}
    (hf : Function.LeftInverse f' f) (hg : Function.LeftInverse g' g) (entries : Entries κ ν) :
    (entries.map f g).map f' g' = entries := by
  have hpairs : (entries.map f g).list.map (Prod.map f' g') = entries.list := by
    rw [list_map hf.injective, List.map_map, Prod.map_comp_map, hf.comp_eq_id, hg.comp_eq_id,
      Prod.map_id, List.map_id]
  ext1
  rw [map, hpairs]
  exact list_ofPairs entries.nodup

def mapEquiv [DecidableEq κ] (e : κ ≃ κ') (e' : ν ≃ ν') : Entries κ ν ≃ Entries κ' ν' where
  toFun := map e e'
  invFun := map e.symm e'.symm
  left_inv := map_map_of_leftInverse e.left_inv e'.left_inv
  right_inv := map_map_of_leftInverse e.right_inv e'.right_inv

end Entries

/-- What a collection is held in. -/
inductive Form where
  | host
  /-- A collection of the host, as one of Scala. -/
  | view
  | iterator
  | scala
  deriving DecidableEq, Repr

/-- The types of the expressions in a conversion. -/
inductive ExprType where
  | scalar (s : Scalar)
  /-- The class whose objects hold a scalar. -/
  | boxed (s : Scalar)
  | external (expression : String)
  /-- An enumeration of the host, by the name of its wrapper. -/
  | hostConstant (name : String)
  | constant (name : String)
  /-- A class of the host, by the name of its wrapper. -/
  | hostObject (name : String)
  | wrapper (name : String)
  /-- A host type with null. No other type has it. -/
  | nullable (value : ExprType)
  | option (value : ExprType)
  | list (form : Form) (element : ExprType)
  | set (form : Form) (element : ExprType)
  | map (form : Form) (key value : ExprType)
  deriving DecidableEq, Repr

namespace ExprType

variable (w : World)

/-- The values of a type. A set has no order, and its iterator has none that could be relied on. -/
@[reducible]
def Carrier : ExprType → Type
  | scalar s => w.scalar s
  | boxed s => Holder (w.scalar s)
  | external expression => w.external expression
  | hostConstant name => w.constant name
  | constant name => Holder (w.constant name)
  | hostObject name => w.object name
  | wrapper name => Holder (w.object name)
  | nullable value => Option value.Carrier
  | option value => Option value.Carrier
  | list _ element => List element.Carrier
  | set .iterator element => Multiset element.Carrier
  | set _ element => Finset element.Carrier
  | map .iterator key value => List (key.Carrier × value.Carrier)
  | map _ key value => Entries key.Carrier value.Carrier

instance decidableEqCarrier : (t : ExprType) → DecidableEq (t.Carrier w)
  | scalar s => w.scalarEq s
  | boxed s =>
    have := w.scalarEq s
    inferInstanceAs (DecidableEq (Holder (w.scalar s)))
  | external expression => w.externalEq expression
  | hostConstant name => w.constantEq name
  | constant name =>
    have := w.constantEq name
    inferInstanceAs (DecidableEq (Holder (w.constant name)))
  | hostObject name => w.objectEq name
  | wrapper name =>
    have := w.objectEq name
    inferInstanceAs (DecidableEq (Holder (w.object name)))
  | nullable value | option value =>
    have := decidableEqCarrier value
    inferInstanceAs (DecidableEq (Option (value.Carrier w)))
  | list _ element =>
    have := decidableEqCarrier element
    inferInstanceAs (DecidableEq (List (element.Carrier w)))
  | set form element =>
    have := decidableEqCarrier element
    match form with
    | .iterator => inferInstanceAs (DecidableEq (Multiset (element.Carrier w)))
    | .host | .view | .scala => inferInstanceAs (DecidableEq (Finset (element.Carrier w)))
  | map form key value =>
    have := decidableEqCarrier key
    have := decidableEqCarrier value
    match form with
    | .iterator => inferInstanceAs (DecidableEq (List (key.Carrier w × value.Carrier w)))
    | .host | .view | .scala =>
      inferInstanceAs (DecidableEq (Entries (key.Carrier w) (value.Carrier w)))

end ExprType

end Facade.Scala
