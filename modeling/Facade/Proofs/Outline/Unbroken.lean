import Facade.Proofs.Outcome
import Facade.Scala.Wrapper

/-!
This module contains the proofs that a description which keeps its promises breaks no outline: a class
of the catalog gets its file or is refused.
-/

namespace Facade

open Host Outcome Scala

/-- Whether a class has the methods that its fields are said to have. -/
structure Host.HostClass.Intact (c : HostClass) : Prop where
  getters : ∀ f ∈ c.fields, f.hasGetter = true → ∃ m, c.getterFor? f.name = some m
  setters : ∀ f ∈ c.fields, f.hasSetter = true →
    ∃ m t, c.setterFor? f.name = some m ∧ m.parameters = [t]

namespace Scala

def Stop.IsRefusal : Stop → Prop
  | refused (.flawed _ _) => False
  | refused _ => True
  | broken _ => False

def Unbroken {α : Type} (x : Except Stop α) : Prop :=
  ∀ breach, x ≠ .error (.broken breach)

theorem unbroken_of_failsAs {α : Type} {x : Except Stop α} (h : FailsAs Stop.IsRefusal x) :
    Unbroken x :=
  fun _ heq => h _ heq

namespace Outline

variable {context : Context}

theorem claimName_refuses (base : String) (pool : NamePool) :
    FailsAs Stop.IsRefusal (claimName base pool) := by
  unfold claimName NamePool.claim
  split
  . exact failsAs_ok _
  . next refusal hclaim =>
    split at hclaim
    . cases hclaim
      exact failsAs_error trivial
    . split at hclaim
      . cases hclaim
      . cases hclaim
        exact failsAs_error trivial

theorem memberType_refuses (member : String) (host : HostType) (nullable : Bool) :
    FailsAs Stop.IsRefusal (memberType context member host nullable) := by
  unfold memberType typeForMember
  split
  . exact failsAs_ok _
  . next refusal htype =>
    split at htype
    . cases htype
    . cases htype
      exact failsAs_error trivial

theorem parameters_refuses (index : Nat) (pool : NamePool) (ps : List HostClass.Parameter) :
    FailsAs Stop.IsRefusal (parameters context index pool ps) := by
  induction ps generalizing pool with
  | nil => exact failsAs_ok _
  | cons p ps ih =>
    apply (claimName_refuses _ _).bind
    rintro ⟨name, pool⟩
    apply (memberType_refuses _ _ _).bind
    intro type
    apply (ih pool).bind
    intro rest
    exact failsAs_ok _

theorem constructors_refuses (index : Nat) (cs : List HostClass.Constructor) :
    FailsAs Stop.IsRefusal (constructors context index cs) := by
  induction cs generalizing index with
  | nil => exact failsAs_ok _
  | cons c cs ih =>
    apply (parameters_refuses _ _ _).bind
    intro first
    apply (ih _).bind
    intro rest
    exact failsAs_ok _

theorem checkErased_refuses (className : String) (seen : List (List String × Option Nat))
    (index : Nat) (cs : List Constructor) :
    FailsAs Stop.IsRefusal (checkErased className seen index cs) := by
  induction cs generalizing seen index with
  | nil => exact failsAs_ok _
  | cons c cs ih =>
    unfold checkErased
    split
    . exact failsAs_error trivial
    . exact ih _ _

theorem getter_refuses (pool : NamePool) (property : String) (m : HostClass.Method) :
    FailsAs Stop.IsRefusal (getter context pool property m) := by
  apply (claimName_refuses _ _).bind
  rintro ⟨name, pool⟩
  apply (memberType_refuses _ _ _).bind
  intro type
  exact failsAs_ok _

theorem fieldGetters_refuses (pool : NamePool) {fs : List HostClass.Field}
    (h : ∀ f ∈ fs, ∃ m, context.host.getterFor? f.name = some m) :
    FailsAs Stop.IsRefusal (fieldGetters context pool fs) := by
  induction fs generalizing pool with
  | nil => exact failsAs_ok _
  | cons f fs ih =>
    obtain ⟨m, hm⟩ := h f List.mem_cons_self
    rw [fieldGetters, hm]
    apply (getter_refuses _ _ _).bind
    rintro ⟨first, pool⟩
    apply (ih pool fun f hf => h f (List.mem_cons_of_mem _ hf)).bind
    rintro ⟨rest, pool⟩
    exact failsAs_ok _

theorem computedGetters_refuses (pool : NamePool) (ms : List HostClass.Method) :
    FailsAs Stop.IsRefusal (computedGetters context pool ms) := by
  induction ms generalizing pool with
  | nil => exact failsAs_ok _
  | cons m ms ih =>
    apply (getter_refuses _ _ _).bind
    rintro ⟨first, pool⟩
    apply (ih pool).bind
    rintro ⟨rest, pool⟩
    exact failsAs_ok _

theorem setter_refuses (pool : NamePool) (field : String) {m : HostClass.Method} {t : HostType}
    (h : m.parameters = [t]) : FailsAs Stop.IsRefusal (setter context pool field m) := by
  rw [setter, h]
  apply (claimName_refuses _ _).bind
  rintro ⟨name, pool⟩
  apply (memberType_refuses _ _ _).bind
  intro type
  exact failsAs_ok _

theorem setters_refuses (pool : NamePool) {fs : List HostClass.Field}
    (h : ∀ f ∈ fs, ∃ m t, context.host.setterFor? f.name = some m ∧ m.parameters = [t]) :
    FailsAs Stop.IsRefusal (setters context pool fs) := by
  induction fs generalizing pool with
  | nil => exact failsAs_ok _
  | cons f fs ih =>
    obtain ⟨m, t, hm, ht⟩ := h f List.mem_cons_self
    rw [setters, hm]
    apply (setter_refuses _ _ ht).bind
    rintro ⟨first, pool⟩
    apply (ih pool fun f hf => h f (List.mem_cons_of_mem _ hf)).bind
    intro rest
    exact failsAs_ok _

theorem members_refuses (h : context.host.Intact) : FailsAs Stop.IsRefusal (members context) := by
  apply (constructors_refuses _ _).bind
  intro ks
  apply (checkErased_refuses _ _ _ _).bind
  rintro ⟨⟩
  apply FailsAs.bind
  . apply fieldGetters_refuses
    intro f hf
    obtain ⟨hf, hgetter⟩ := List.mem_filter.mp hf
    exact h.getters f hf hgetter
  rintro ⟨bound, pool⟩
  apply (computedGetters_refuses _ _).bind
  rintro ⟨computed, pool⟩
  apply FailsAs.bind
  . apply setters_refuses
    intro f hf
    obtain ⟨hf, hsetter⟩ := List.mem_filter.mp hf
    exact h.setters f hf hsetter
  intro ss
  exact failsAs_ok _

theorem constants_refuses (pool : NamePool) (hosts : List String) :
    FailsAs Stop.IsRefusal (constants pool hosts) := by
  induction hosts generalizing pool with
  | nil => exact failsAs_ok _
  | cons host hosts ih =>
    apply (claimName_refuses _ _).bind
    rintro ⟨name, pool⟩
    apply (ih pool).bind
    intro rest
    exact failsAs_ok _

theorem bodyOf_refuses (h : context.host.Intact) : FailsAs Stop.IsRefusal (bodyOf context) := by
  unfold bodyOf
  split
  . apply (constants_refuses _ _).bind
    intro constants
    exact failsAs_ok _
  . exact members_refuses h

end Outline

/-- A class of the catalog that keeps its promises gets its file or is refused for a name or a type. -/
theorem generateFile_refuses {catalog : Catalog} {c : HostClass} {entry : Catalog.Entry}
    (hentry : catalog.get? c.name = some entry) (h : c.Intact) :
    FailsAs Stop.IsRefusal (generateFile catalog c) := by
  apply FailsAs.bind
  . rw [Outline.ofClass, hentry]
    dsimp only
    split
    . exact failsAs_error trivial
    . apply (Outline.bodyOf_refuses h).bind
      intro body
      exact failsAs_ok _
  . intro o
    exact failsAs_ok _

theorem generateFile_unbroken {catalog : Catalog} {c : HostClass} {entry : Catalog.Entry}
    (hentry : catalog.get? c.name = some entry) (h : c.Intact) :
    Unbroken (generateFile catalog c) :=
  unbroken_of_failsAs (generateFile_refuses hentry h)

end Scala

end Facade
