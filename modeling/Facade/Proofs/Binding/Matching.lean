import Mathlib.Data.List.Forall2

/-!
This module contains the matching of items to keys, first come, first served: every key gets the first
item that it accepts, and what no key gets is left over.
-/

namespace Facade.Matching

variable {κ α : Type} {accepts : κ → α → Bool} {keys : List κ} {items : List α}

/-- The keys that accept an item, each with the first item that it accepts. -/
def firsts (accepts : κ → α → Bool) (keys : List κ) (items : List α) : List (κ × α) :=
  keys.filterMap fun key => (items.find? (accepts key)).map (key, ·)

def leftover (accepts : κ → α → Bool) (keys : List κ) (items : List α) : List α :=
  keys.foldl (fun items key => items.eraseP (accepts key)) items

def Exclusive (accepts : κ → α → Bool) (keys : List κ) : Prop :=
  keys.Pairwise fun key key' => ∀ a, accepts key a = true → accepts key' a = false

theorem mem_firsts {key : κ} {a : α} :
    (key, a) ∈ firsts accepts keys items ↔ key ∈ keys ∧ items.find? (accepts key) = some a := by
  rw [firsts, List.mem_filterMap]
  constructor
  . rintro ⟨key', hkey, hfirst⟩
    obtain ⟨a', ha, heq⟩ := Option.map_eq_some_iff.mp hfirst
    cases heq
    exact ⟨hkey, ha⟩
  . rintro ⟨hkey, ha⟩
    exact ⟨key, hkey, by rw [ha]; rfl⟩

theorem find?_eraseP {p q : α → Bool} (h : ∀ a, p a = true → q a = false) (items : List α) :
    (items.eraseP p).find? q = items.find? q := by
  induction items with
  | nil => rfl
  | cons a items ih =>
    cases hp : p a with
    | true => rw [List.eraseP_cons_of_pos hp, List.find?_cons_of_neg (by simp [h a hp])]
    | false =>
      rw [List.eraseP_cons_of_neg (by simp [hp]), List.find?_cons, List.find?_cons, ih]

/-- What comes of the flagged partners of keys comes of the keys with their first items, if the flags
tell which keys accept an item. -/
theorem forall₂_firsts {β γ : Type} {R : κ → β → Prop} {S : β → γ → Prop} {T : κ × α → γ → Prop}
    {flag : β → Bool} {bs : List β} {cs : List γ} (hkeys : List.Forall₂ R keys bs)
    (hflag : ∀ key b, R key b → flag b = (items.find? (accepts key)).isSome)
    (hflagged : List.Forall₂ S (bs.filter flag) cs)
    (h : ∀ key ∈ keys, ∀ b c a, R key b → S b c → items.find? (accepts key) = some a → T (key, a) c) :
    List.Forall₂ T (firsts accepts keys items) cs := by
  induction hkeys generalizing cs with
  | nil =>
    cases hflagged
    exact .nil
  | @cons key b keys bs hkey _ ih =>
    have hrest := fun key' hkey' => h key' (List.mem_cons_of_mem _ hkey')
    rw [firsts, List.filterMap_cons, ← firsts]
    rw [List.filter_cons, hflag key b hkey] at hflagged
    cases hfirst : items.find? (accepts key) with
    | none =>
      rw [hfirst] at hflagged
      exact ih hflagged hrest
    | some a =>
      rw [hfirst] at hflagged
      cases hflagged with
      | cons hc hflagged =>
        exact .cons (h key List.mem_cons_self b _ a hkey hc hfirst) (ih hflagged hrest)

theorem firsts_eraseP {key : κ}
    (h : ∀ key' ∈ keys, ∀ a, accepts key a = true → accepts key' a = false) :
    firsts accepts keys (items.eraseP (accepts key)) = firsts accepts keys items := by
  unfold firsts
  apply List.filterMap_congr
  intro key' hkey'
  rw [find?_eraseP (h key' hkey')]

theorem leftover_sublist : (leftover accepts keys items).Sublist items := by
  unfold leftover
  induction keys generalizing items with
  | nil => exact List.Sublist.refl _
  | cons key keys ih => exact ih.trans List.eraseP_sublist

theorem perm_find?_eraseP (p : α → Bool) (items : List α) :
    ((items.find? p).toList ++ items.eraseP p).Perm items := by
  induction items with
  | nil => exact List.Perm.refl _
  | cons a items ih =>
    cases hp : p a with
    | true => simp [hp]
    | false =>
      rw [List.find?_cons_of_neg (by simp [hp]), List.eraseP_cons_of_neg (by simp [hp])]
      exact List.perm_middle.trans (ih.cons a)

/-- Every item is that of a key or left over, and never both. -/
theorem firsts_append_leftover_perm (h : Exclusive accepts keys) (items : List α) :
    ((firsts accepts keys items).map Prod.snd ++ leftover accepts keys items).Perm items := by
  induction keys generalizing items with
  | nil => exact List.Perm.refl _
  | cons key keys ih =>
    obtain ⟨hkey, hkeys⟩ := List.pairwise_cons.mp h
    have hfirst : (firsts accepts (key :: keys) items).map Prod.snd =
        (items.find? (accepts key)).toList ++
          (firsts accepts keys (items.eraseP (accepts key))).map Prod.snd := by
      rw [firsts_eraseP hkey]
      unfold firsts
      rw [List.filterMap_cons]
      cases items.find? (accepts key) <;> rfl
    rw [hfirst, List.append_assoc]
    -- the induction goes on among the items without that of the first key
    exact ((ih hkeys _).append_left _).trans (perm_find?_eraseP _ items)

def taker? (accepts : κ → α → Bool) (keys : List κ) (items : List α) (a : α) : Option κ :=
  keys.find? fun key => accepts key a && (items.find? (accepts key)).isNone

theorem taker?_eraseP {key : κ} {a : α}
    (h : ∀ key' ∈ keys, ∀ a, accepts key a = true → accepts key' a = false) :
    taker? accepts keys (items.eraseP (accepts key)) a = taker? accepts keys items a := by
  unfold taker?
  induction keys with
  | nil => rfl
  | cons key' keys ih =>
    rw [List.find?_cons, List.find?_cons, find?_eraseP (h key' List.mem_cons_self),
      ih fun key hkey => h key (List.mem_cons_of_mem _ hkey)]

theorem taker?_eq_some_iff (h : Exclusive accepts keys) {key : κ} (hkey : key ∈ keys) {a : α} :
    taker? accepts keys items a = some key ↔
      accepts key a = true ∧ items.find? (accepts key) = none := by
  constructor
  . intro htaker
    simpa using List.find?_some htaker
  . rintro ⟨ha, hnone⟩
    induction keys with
    | nil => cases hkey
    | cons first keys ih =>
      obtain ⟨hfirst, hkeys⟩ := List.pairwise_cons.mp h
      rw [taker?, List.find?_cons, ← taker?]
      obtain rfl | hkey := List.mem_cons.mp hkey
      . simp [ha, hnone]
      . have hother : accepts first a = false := by
          rw [← Bool.not_eq_true]
          intro hother
          rw [hfirst key hkey a hother] at ha
          cases ha
        simpa [hother] using ih hkeys hkey

theorem leftover_concat (h : Exclusive accepts keys) (items : List α) (a : α) :
    leftover accepts keys (items ++ [a]) =
      leftover accepts keys items ++
        if (taker? accepts keys items a).isSome then [] else [a] := by
  induction keys generalizing items with
  | nil => rfl
  | cons key keys ih =>
    obtain ⟨hkey, hkeys⟩ := List.pairwise_cons.mp h
    have hrest := ih hkeys (items.eraseP (accepts key))
    rw [taker?_eraseP hkey] at hrest
    have hstep : ∀ items, leftover accepts (key :: keys) items =
        leftover accepts keys (items.eraseP (accepts key)) := fun _ => rfl
    rw [hstep, hstep, taker?, List.find?_cons, ← taker?, List.eraseP_append]
    -- the key takes the new item only if it has taken none before
    cases hitems : items.find? (accepts key) with
    | some first =>
      have hany : items.any (accepts key) = true := by
        rw [List.any_eq_true]
        exact ⟨first, List.mem_of_find?_eq_some hitems, List.find?_some hitems⟩
      rw [if_pos hany]
      simpa using hrest
    | none =>
      have hnone := List.find?_eq_none.mp hitems
      have hany : ¬ items.any (accepts key) = true := by simpa using hnone
      rw [List.eraseP_of_forall_not hnone] at hrest ⊢
      rw [if_neg hany]
      cases ha : accepts key a with
      | true => simp [ha]
      | false => simpa [ha] using hrest

end Facade.Matching
