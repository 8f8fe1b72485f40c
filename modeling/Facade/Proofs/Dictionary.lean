import Facade.Data.Dictionary
import Mathlib.Data.List.Nodup
import Mathlib.Data.String.Basic

/-!
This module contains the laws of dictionaries: what is found after a value is put in or keys are
dropped, and that the keys stay in ascending order.
-/

namespace Facade.Data.Dictionary

variable {α : Type}

def Ordered (d : Dictionary α) : Prop :=
  d.Pairwise fun a b => a.1 < b.1

def keys (d : Dictionary α) : List String :=
  d.map Prod.fst

@[simp]
theorem get?_nil (key : String) : get? key ([] : Dictionary α) = none := rfl

theorem get?_cons (key k : String) (v : α) (d : Dictionary α) :
    get? key ((k, v) :: d) = if key = k then some v else get? key d := by
  unfold get?
  rw [List.lookup_cons]
  by_cases h : key = k
  . simp [h]
  . have hne : (key == k) = false := by simpa using h
    simp only [hne, if_neg h]

theorem get?_filter (keep : String → Bool) (d : Dictionary α) (key : String) :
    get? key (d.filter fun e => keep e.1) = if keep key then get? key d else none := by
  induction d with
  | nil => simp
  | cons e d ih =>
    obtain ⟨k, v⟩ := e
    rw [List.filter_cons, get?_cons]
    split
    . next hk =>
      rw [get?_cons, ih]
      by_cases h : key = k
      . simp [h, hk]
      . simp [h]
    . next hk =>
      rw [ih]
      by_cases h : key = k
      . simp [h, hk]
      . simp [h]

theorem get?_insert (key : String) (value : α) (d : Dictionary α) (k : String) :
    get? k (insert key value d) = if k = key then some value else get? k d := by
  induction d with
  | nil => simp [insert, get?_cons]
  | cons e d ih =>
    obtain ⟨k', v⟩ := e
    unfold insert
    split
    . rw [get?_cons]
    . split
      . next heq =>
        subst heq
        simp only [get?_cons]
        split <;> rfl
      . next hne =>
        rw [get?_cons, get?_cons, ih]
        by_cases h : k = k'
        . subst h
          simp [Ne.symm hne]
        . simp [h]

theorem mem_of_get? {d : Dictionary α} {key : String} {value : α} (h : get? key d = some value) :
    (key, value) ∈ d := by
  induction d with
  | nil => cases h
  | cons e d ih =>
    obtain ⟨k, v⟩ := e
    rw [get?_cons] at h
    split at h
    . next heq =>
      cases h
      rw [heq]
      exact List.mem_cons_self
    . exact List.mem_cons_of_mem _ (ih h)

theorem get?_of_mem {d : Dictionary α} (hd : d.keys.Nodup) {key : String} {value : α}
    (h : (key, value) ∈ d) : get? key d = some value := by
  induction d with
  | nil => cases h
  | cons e d ih =>
    obtain ⟨k, v⟩ := e
    rw [keys, List.map_cons, List.nodup_cons] at hd
    rw [get?_cons]
    cases h with
    | head => rw [if_pos rfl]
    | tail _ h =>
      have hne : key ≠ k := by
        rintro rfl
        exact hd.1 (List.mem_map.mpr ⟨(key, value), h, rfl⟩)
      rw [if_neg hne]
      exact ih hd.2 h

theorem get?_eq_of_perm {d d' : Dictionary α} (hd : d.keys.Nodup) (h : d.Perm d') (key : String) :
    get? key d = get? key d' := by
  have hd' : d'.keys.Nodup := (h.map Prod.fst).nodup_iff.mp hd
  apply Option.ext
  intro value
  constructor
  . exact fun hvalue => get?_of_mem hd' (h.mem_iff.mp (mem_of_get? hvalue))
  . exact fun hvalue => get?_of_mem hd (h.mem_iff.mpr (mem_of_get? hvalue))

theorem Ordered.nodup_keys {d : Dictionary α} (h : d.Ordered) : d.keys.Nodup := by
  rw [keys, List.Nodup, List.pairwise_map]
  exact h.imp fun hlt => ne_of_lt hlt

theorem Ordered.get?_of_mem {d : Dictionary α} (hd : d.Ordered) {key : String} {value : α}
    (h : (key, value) ∈ d) : get? key d = some value :=
  Dictionary.get?_of_mem hd.nodup_keys h

theorem mem_keys_iff {d : Dictionary α} {key : String} :
    key ∈ d.keys ↔ ∃ value, get? key d = some value := by
  induction d with
  | nil => simp [keys]
  | cons e d ih =>
    obtain ⟨k, v⟩ := e
    rw [get?_cons, keys, List.map_cons, List.mem_cons, ← keys, ih]
    by_cases h : key = k
    . simp [h]
    . simp [h]

theorem has_iff {d : Dictionary α} {key : String} : has key d = true ↔ key ∈ d.keys := by
  rw [has, Option.isSome_iff_exists, mem_keys_iff]

theorem Ordered.ext {d d' : Dictionary α} (hd : d.Ordered)
    (hd' : d'.Ordered) (h : ∀ key value, get? key d = some value ↔ get? key d' = some value) :
    d = d' := by
  have hmem : ∀ entry, entry ∈ d ↔ entry ∈ d' := by
    rintro ⟨key, value⟩
    constructor
    . exact fun hentry => mem_of_get? ((h key value).mp (hd.get?_of_mem hentry))
    . exact fun hentry => mem_of_get? ((h key value).mpr (hd'.get?_of_mem hentry))
  apply List.Perm.eq_of_pairwise _ hd hd'
  . rw [List.perm_ext_iff_of_nodup hd.nodup_keys.of_map hd'.nodup_keys.of_map]
    exact hmem
  . intro entry entry' _ _ hlt hgt
    exact absurd (lt_trans hlt hgt) (lt_irrefl _)

theorem mem_insert {key : String} {value : α} {d : Dictionary α} {e : String × α}
    (h : e ∈ insert key value d) : e = (key, value) ∨ e ∈ d := by
  induction d with
  | nil => exact .inl (List.mem_singleton.mp h)
  | cons e' d ih =>
    obtain ⟨k, v⟩ := e'
    unfold insert at h
    split at h
    . exact List.mem_cons.mp h
    . split at h
      . obtain h | h := List.mem_cons.mp h
        . exact .inl h
        . exact .inr (List.mem_cons_of_mem _ h)
      . obtain h | h := List.mem_cons.mp h
        . exact .inr (by rw [h]; exact List.mem_cons_self)
        . obtain h | h := ih h
          . exact .inl h
          . exact .inr (List.mem_cons_of_mem _ h)

theorem Ordered.insert {d : Dictionary α} (h : d.Ordered) (key : String) (value : α) :
    Ordered (Dictionary.insert key value d) := by
  induction d with
  | nil => exact List.pairwise_singleton _ _
  | cons e d ih =>
    obtain ⟨k, v⟩ := e
    have hcons := List.pairwise_cons.mp h
    unfold Dictionary.insert
    split
    . next hlt =>
      apply List.Pairwise.cons
      . intro e he
        cases he with
        | head => exact hlt
        | tail _ he => exact lt_trans hlt (hcons.1 e he)
      . exact h
    . next hnlt =>
      split
      . next heq =>
        apply List.Pairwise.cons
        . intro e he
          rw [heq]
          exact hcons.1 e he
        . exact hcons.2
      . next hne =>
        have hlt : k < key := lt_of_le_of_ne (not_lt.mp hnlt) (Ne.symm hne)
        apply List.Pairwise.cons
        . intro e he
          obtain rfl | he := mem_insert he
          . exact hlt
          . exact hcons.1 e he
        . exact ih hcons.2

theorem insert_perm {key : String} {value : α} {d : Dictionary α} (h : key ∉ d.keys) :
    (insert key value d).Perm ((key, value) :: d) := by
  induction d with
  | nil => exact List.Perm.refl _
  | cons e d ih =>
    obtain ⟨k, v⟩ := e
    rw [keys, List.map_cons, List.mem_cons, not_or] at h
    unfold insert
    split
    . exact List.Perm.refl _
    . split
      . next heq => exact absurd heq h.1
      . exact ((ih h.2).cons (k, v)).trans (List.Perm.swap _ _ _)

theorem keys_insert_perm {key : String} {value : α} {d : Dictionary α} (h : key ∉ d.keys) :
    (keys (insert key value d)).Perm (key :: d.keys) :=
  (insert_perm h).map Prod.fst

theorem Ordered.get?_filter {d : Dictionary α} (hd : d.Ordered) (keep : String × α → Bool)
    (key : String) : get? key (d.filter keep) = (get? key d).filter fun v => keep (key, v) := by
  apply Option.ext
  intro value
  rw [Option.filter_eq_some_iff]
  constructor
  . intro h
    obtain ⟨hmem, hkeep⟩ := List.mem_filter.mp (mem_of_get? h)
    exact ⟨hd.get?_of_mem hmem, hkeep⟩
  . rintro ⟨h, hkeep⟩
    have hkept : Ordered (d.filter keep) := hd.sublist List.filter_sublist
    exact hkept.get?_of_mem (List.mem_filter.mpr ⟨mem_of_get? h, hkeep⟩)

end Facade.Data.Dictionary
