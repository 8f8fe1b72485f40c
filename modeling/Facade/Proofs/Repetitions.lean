import Facade.Batch.Lint
import Facade.Proofs.Order

/-!
This module contains the proof that the lint for repeated records and the description of records agree
on which records repeat a class. The lint remembers where it has met a class, the description only
that it has.
-/

namespace Facade

open Host Batch

namespace Record

def isRepeated (records : List Record) (entry : Record × Nat) : Bool :=
  (records.take entry.2).any (·.name == entry.1.name)

/-- The records that repeat a class, with their indices. -/
def repeated (records : List Record) : List (Record × Nat) :=
  records.zipIdx.filter (isRepeated records)

/-- The first record of each class, with its index. -/
def firsts (records : List Record) : List (Record × Nat) :=
  records.zipIdx.filter (!isRepeated records ·)

/-- The index of the first record of a class. -/
def firstIndex (records : List Record) (name : String) : Nat :=
  records.findIdx (·.name == name)

/-- The warning about a record that repeats a class. -/
def warning (records : List Record) (entry : Record × Nat) : Notice :=
  let repeated := s!"record #{entry.2 + 1} repeats class '{entry.1.name}'"
  let first := firstIndex records entry.1.name
  Lint.about entry.1 .warning (repeated ++ s!" (first seen as record #{first + 1})")

/-- The failure of a record that repeats a class. -/
def repetition (entry : Record × Nat) : Failure :=
  ⟨entry.1.name, .flawed entry.1.name .repeatedRecord⟩

variable {records before rest : List Record} {r : Record} {i : Nat}

theorem isRepeated_append (r : Record) (before rest : List Record) :
    isRepeated (before ++ r :: rest) (r, before.length) = before.any (·.name == r.name) := by
  simp [isRepeated]

theorem mem_firsts_iff : (r, i) ∈ firsts records ↔
    records[i]? = some r ∧ firstIndex records r.name = i := by
  simp only [firsts, List.mem_filter, List.mem_zipIdx_iff_getElem?, isRepeated, Bool.not_eq_true',
    List.any_eq_false]
  refine and_congr_right fun hget => ?_
  obtain ⟨hlt, rfl⟩ := List.getElem?_eq_some_iff.mp hget
  rw [firstIndex, List.findIdx_eq hlt]
  constructor
  . intro hnone
    refine ⟨beq_self_eq_true _, fun j hj => ?_⟩
    have hmem : records[j] ∈ records.take i :=
      List.mem_take_iff_getElem.mpr ⟨j, by omega, rfl⟩
    exact eq_false_of_ne_true (hnone _ hmem)
  . rintro ⟨-, hnone⟩ other hother
    obtain ⟨j, hj, rfl⟩ := List.mem_take_iff_getElem.mp hother
    exact ne_true_of_eq_false (hnone j (by omega))

theorem exists_first (h : r ∈ records) :
    ∃ first, first.name = r.name ∧ ∀ entry, entry ∈ firsts records ∧ entry.1.name = r.name ↔
      entry = (first, firstIndex records r.name) := by
  have hlt : firstIndex records r.name < records.length :=
    List.findIdx_lt_length_of_exists ⟨r, h, by simp⟩
  have hname : records[firstIndex records r.name].name = r.name :=
    eq_of_beq (List.findIdx_getElem (w := hlt))
  refine ⟨_, hname, ?_⟩
  rintro ⟨other, i⟩
  rw [mem_firsts_iff, Prod.mk.injEq]
  constructor
  . rintro ⟨⟨hget, rfl⟩, hother⟩
    dsimp only at hother
    rw [hother] at hget ⊢
    rw [List.getElem?_eq_getElem hlt] at hget
    exact ⟨(Option.some.inj hget).symm, rfl⟩
  . rintro ⟨rfl, rfl⟩
    exact ⟨⟨List.getElem?_eq_getElem hlt, by rw [hname]⟩, hname⟩

section

variable {markers : Settings.Markers} {enums : List String}

def classAt (markers : Settings.Markers) (enums : List String) (records : List Record)
    (entry : Record × Nat) : Option HostClass :=
  if !isRepeated records entry then described? markers enums entry.1 else none

def failureAt (markers : Settings.Markers) (enums : List String) (records : List Record)
    (entry : Record × Nat) : Option Failure :=
  if isRepeated records entry then some (repetition entry) else flaw? markers enums entry.1

theorem describeAll_eq {seen : List String}
    (hseen : ∀ name, seen.contains name = before.any (·.name == name)) :
    describeAll markers enums seen rest =
      ⟨(rest.zipIdx before.length).filterMap (classAt markers enums (before ++ rest)),
        (rest.zipIdx before.length).filterMap (failureAt markers enums (before ++ rest))⟩ := by
  induction rest generalizing before seen with
  | nil => rfl
  | cons r rest ih =>
    have hnext : ∀ name, (r.name :: seen).contains name = (before ++ [r]).any (·.name == name) := by
      intro name
      rw [List.contains_cons, hseen, List.any_append, Bool.or_comm]
      simp [Bool.beq_comm]
    have hrest := ih hnext
    rw [List.append_assoc, List.singleton_append, List.length_append, List.length_singleton] at hrest
    rw [describeAll, hrest, hseen, List.zipIdx_cons, List.filterMap_cons, List.filterMap_cons,
      classAt, failureAt, isRepeated_append]
    cases before.any (·.name == r.name) with
    | true => rfl
    | false =>
      simp only [described?, flaw?]
      cases describe markers enums r <;> rfl

theorem isRepetition_of_flaw? {f : Failure} (h : flaw? markers enums r = some f) :
    f.refusal.isRepetition = false := by
  unfold flaw? at h
  split at h
  . cases h
  . next refusal hdescribe =>
    cases h
    exact (describe_flaws markers enums r refusal hdescribe).isRepetition

variable {entry : Record × Nat}

theorem isRepetition_failureAt {f : Failure} (h : failureAt markers enums records entry = some f) :
    f.refusal.isRepetition = isRepeated records entry := by
  unfold failureAt at h
  split at h
  . next hrepeated =>
    cases h
    exact hrepeated.symm
  . next hfirst =>
    rw [isRepetition_of_flaw? h]
    exact (eq_false_of_ne_true hfirst).symm

theorem filter_failureAt (keep : Bool → Bool) :
    (failureAt markers enums records entry).filter (fun f => keep f.refusal.isRepetition) =
      if keep (isRepeated records entry) then failureAt markers enums records entry else none := by
  cases hfailure : failureAt markers enums records entry with
  | none => exact (ite_self none).symm
  | some f => rw [Option.filter_some, isRepetition_failureAt hfailure]

end

end Record

namespace Batch.Lint

open Record

/-- The lint warns of the records that repeat a class, if it remembers where each class has come up
first. -/
theorem repetitions_eq {before rest : List Record} {seen : List (String × Nat)}
    (hseen : ∀ name, seen.lookup name = before.findIdx? (·.name == name)) :
    repetitions seen before.length rest =
      ((rest.zipIdx before.length).filter (isRepeated (before ++ rest))).map
        (warning (before ++ rest)) := by
  induction rest generalizing before seen with
  | nil => rfl
  | cons r rest ih =>
    have hnext : ∀ seen' : List (String × Nat),
        (∀ name, seen'.lookup name = (before ++ [r]).findIdx? (·.name == name)) →
          repetitions seen' (before.length + 1) rest =
            ((rest.zipIdx (before.length + 1)).filter (isRepeated (before ++ r :: rest))).map
              (warning (before ++ r :: rest)) := by
      intro seen' hseen'
      simpa using ih hseen'
    rw [repetitions, List.zipIdx_cons, List.filter_cons, isRepeated_append, ← List.findIdx?_isSome,
      hseen]
    -- the table of names seen stays the table of first positions in both cases
    cases hfirst : before.findIdx? (·.name == r.name) with
    | none =>
      apply hnext
      intro name
      rw [List.lookup_cons, hseen, List.findIdx?_append]
      by_cases hname : name = r.name
      . simp [hname, hfirst]
      . simp [beq_eq_false_iff_ne.mpr hname, Ne.symm hname]
    | some first =>
      have hindex : firstIndex (before ++ r :: rest) r.name = first := by
        have hwhole : (before ++ r :: rest).findIdx? (·.name == r.name) = some first := by
          rw [List.findIdx?_append, hfirst, Option.some_or]
        exact (List.findIdx?_eq_some_iff_findIdx_eq.mp hwhole).2
      simp only [Option.isSome_some, ↓reduceIte, List.map_cons, warning, hindex]
      congr 1
      apply hnext
      intro name
      rw [hseen, List.findIdx?_append]
      by_cases hname : name = r.name
      . simp [hname, hfirst]
      . simp [Ne.symm hname]

end Batch.Lint

end Facade
