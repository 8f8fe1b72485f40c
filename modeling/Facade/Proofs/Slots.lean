import Facade.Data.Shape
import Facade.Proofs.Json.Reading
import Facade.Proofs.Outcome

/-!
This module contains the proofs about values in data formats: a record is read back from what is written
for it if its fields are restored, one after the other.
-/

namespace Facade.Data

open Outcome

/-- Whether a value can be read back from what is written for it, which has a text. -/
def InvertsAt (read : Tree → Decode α) (write : α → Tree) (a : α) : Prop :=
  read (write a) = .ok a ∧ Json.HasText (write a)

def Inverts (read : Tree → Decode α) (write : α → Tree) : Prop :=
  ∀ a, InvertsAt read write a

namespace Decode

theorem inverts_text : Inverts text .text :=
  fun s => ⟨rfl, Json.hasText_text s⟩

theorem inverts_text? : Inverts text? .ofString? := by
  intro s
  refine ⟨?_, Json.hasText_ofString? s⟩
  cases s <;> rfl

theorem inverts_flag : Inverts flag .flag :=
  fun b => ⟨rfl, Json.hasText_flag b⟩

theorem items_map {read : Tree → Decode α} {write : α → Tree} {values : List α}
    (h : ∀ a ∈ values, InvertsAt read write a) (index : Nat) :
    items read index (values.map write) = .ok values := by
  induction values generalizing index with
  | nil => rfl
  | cons a values ih =>
    rw [List.forall_mem_cons] at h
    rw [List.map_cons, items, h.1.1, ih h.2]
    rfl

theorem invertsAt_list {read : Tree → Decode α} {write : α → Tree} {values : List α}
    (h : ∀ a ∈ values, InvertsAt read write a) :
    InvertsAt (list read) (fun values => .ofItems (values.map write)) values := by
  constructor
  . dsimp only
    rw [Tree.ofItems, list, items_map h]
    rfl
  . apply Json.hasText_ofItems
    rw [List.forall_mem_map]
    exact fun a ha => (h a ha).2

theorem inverts_list {read : Tree → Decode α} {write : α → Tree} (h : Inverts read write) :
    Inverts (list read) fun values => .ofItems (values.map write) :=
  fun _ => invertsAt_list fun a _ => h a

end Decode

/-- Whether a slot takes one record to another by what it holds in a third one: it is left out where
that may be, or what is written for it can be read. -/
inductive Slot.Restores (slot : Slot α) (a before : α) : α → Prop where
  | skipped : slot.value? a = none → slot.required = false → Restores slot a before before
  | written {t : Tree} {behind : α} : slot.value? a = some t → Json.HasText t →
    slot.put t before = .ok behind → Restores slot a before behind

/-- Whether slots take one record to another, one after the other. -/
inductive Restore (a : α) : List (Slot α) → α → α → Prop where
  | done (b : α) : Restore a [] b b
  | next {slot : Slot α} {slots : List (Slot α)} {before between behind : α} :
    slot.Restores a before between → Restore a slots between behind →
      Restore a (slot :: slots) before behind

namespace Shape

def entries (slots : List (Slot α)) (a : α) : List (String × Tree) :=
  slots.filterMap fun slot => (slot.value? a).map (slot.name, ·)

theorem find?_name {slots : List (Slot α)} (hslots : (slots.map Slot.name).Nodup) {slot : Slot α}
    (h : slot ∈ slots) : slots.find? (·.name == slot.name) = some slot := by
  induction slots with
  | nil => cases h
  | cons other slots ih =>
    rw [List.map_cons, List.nodup_cons] at hslots
    cases h with
    | head => exact List.find?_cons_of_pos (beq_self_eq_true slot.name)
    | tail _ h =>
      rw [List.find?_cons_of_neg, ih hslots.2 h]
      rw [beq_iff_eq]
      intro hname
      exact hslots.1 (hname ▸ List.mem_map_of_mem h)

/-- The entries that are written for some slots are read by these slots, and none of them that has to
be there is missing. -/
theorem readEntries_entries {slots todo : List (Slot α)} {a before behind : α}
    (h : Restore a todo before behind) (hslots : (slots.map Slot.name).Nodup) (hsub : todo ⊆ slots)
    (htodo : (todo.map Slot.name).Nodup) {seen : List String}
    (hseen : ∀ slot ∈ todo, slot.name ∉ seen) (index : Nat) :
    ∃ found, readEntries slots index seen before (entries todo a) = .ok (behind, found) ∧
      seen ⊆ found ∧ ∀ slot ∈ todo, slot.required = true → slot.name ∈ found := by
  induction h generalizing seen index with
  | done b => exact ⟨seen, rfl, List.Subset.refl _, List.forall_mem_nil _⟩
  | @next slot todo before between behind hslot hrest ih =>
    rw [List.cons_subset] at hsub
    rw [List.map_cons, List.nodup_cons] at htodo
    rw [List.forall_mem_cons] at hseen
    cases hslot with
    | skipped hvalue hrequired =>
      obtain ⟨found, hread, hsubset, hfound⟩ := ih hsub.2 htodo.2 hseen.2 index
      refine ⟨found, ?_, hsubset, ?_⟩
      . rw [entries, List.filterMap_cons_none (by rw [hvalue, Option.map_none])]
        exact hread
      . rw [List.forall_mem_cons]
        refine ⟨fun h => ?_, hfound⟩
        rw [hrequired] at h
        cases h
    | @written t _ hvalue htext hput =>
      have hfree : ∀ other ∈ todo, other.name ∉ slot.name :: seen := by
        intro other hother hmem
        obtain hname | hmem := List.mem_cons.mp hmem
        . exact htodo.1 (hname ▸ List.mem_map_of_mem hother)
        . exact hseen.2 other hother hmem
      obtain ⟨found, hread, hsubset, hfound⟩ := ih hsub.2 htodo.2 hfree (index + 1)
      rw [List.cons_subset] at hsubset
      refine ⟨found, ?_, hsubset.2, ?_⟩
      . rw [entries, List.filterMap_cons_some (by rw [hvalue, Option.map_some]), readEntries,
          find?_name hslots hsub.1]
        dsimp only
        rw [if_neg (by simpa using hseen.1), hput]
        exact hread
      . rw [List.forall_mem_cons]
        exact ⟨fun _ => hsubset.1, hfound⟩

theorem hasText_entries {slots : List (Slot α)} {a before behind : α}
    (h : Restore a slots before behind) : ∀ e ∈ entries slots a, Json.HasText e.2 := by
  induction h with
  | done b => exact List.forall_mem_nil _
  | next hslot _ ih =>
    unfold entries
    cases hslot with
    | skipped hvalue _ =>
      rw [List.filterMap_cons_none (by rw [hvalue, Option.map_none])]
      exact ih
    | written hvalue htext _ =>
      rw [List.filterMap_cons_some (by rw [hvalue, Option.map_some]), List.forall_mem_cons]
      exact ⟨htext, ih⟩

theorem invertsAt {shape : Shape α} (hslots : (shape.slots.map Slot.name).Nodup) {a : α}
    (h : Restore a shape.slots shape.blank a) (format : Decode.Format) :
    InvertsAt (shape.read format) shape.write a := by
  refine ⟨?_, Json.hasText_ofEntries (hasText_entries h)⟩
  obtain ⟨found, hread, -, hfound⟩ := readEntries_entries h hslots (List.Subset.refl _) hslots
    (fun _ _ => List.not_mem_nil) 0
  have hmissing : missing? shape.slots found = none := by
    rw [missing?, Option.map_eq_none_iff, List.find?_eq_none]
    intro slot hslot
    simpa using hfound slot hslot
  have hwrite : shape.write a = .table (entries shape.slots a) true := rfl
  rw [hwrite, read, hread, ok_bind]
  dsimp only
  rw [hmissing]
  rfl

theorem inverts {shape : Shape α} (hslots : (shape.slots.map Slot.name).Nodup)
    (h : ∀ a, Restore a shape.slots shape.blank a) (format : Decode.Format) :
    Inverts (shape.read format) shape.write :=
  fun a => invertsAt hslots (h a) format

end Shape

section

variable {slot : Slot α} {a before : α} {read : Tree → Decode β} {write : β → Tree}

theorem Slot.restores_of_invertsAt (get : α → β) (set : α → β → α)
    (hinverts : InvertsAt read write (get a)) (hvalue : slot.value? a = some (write (get a)))
    (hput : ∀ t, slot.put t before = read t >>= fun value => .ok (set before value)) :
    slot.Restores a before (set before (get a)) := by
  refine .written hvalue hinverts.2 ?_
  rw [hput]
  exact congrArg (· >>= fun value => .ok (set before value)) hinverts.1

theorem Slot.restores_of_list? (get : α → List β) (set : α → List β → α)
    (hinverts : ∀ b ∈ get a, InvertsAt read write b)
    (hvalue : slot.value? a =
      if (get a).isEmpty then none else some (.ofItems ((get a).map write)))
    (hrequired : slot.required = false)
    (hput : ∀ t, slot.put t before = Decode.list read t >>= fun values => .ok (set before values))
    (hempty : set before [] = before) : slot.Restores a before (set before (get a)) := by
  cases hget : get a with
  | nil =>
    rw [hempty]
    rw [hget] at hvalue
    exact .skipped hvalue hrequired
  | cons b bs =>
    rw [← hget]
    apply restores_of_invertsAt get set (Decode.invertsAt_list hinverts) _ hput
    rw [hvalue, hget]
    rfl

end

end Facade.Data
