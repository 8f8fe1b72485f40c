import Facade.Proofs.Catalog
import Facade.Proofs.Outcome
import Facade.Scala.ScalaType

/-!
This module contains the proofs about the types that stand for host types: they depend only on the
wrappers of the classes that the host types mention, and refer to no other wrappers.
-/

namespace Facade.Host.HostClass

theorem forall_mem_types {c : HostClass} {P : HostType → Prop} :
    (∀ t ∈ c.types, P t) ↔
      (∀ f ∈ c.fields, P f.type) ∧ (∀ k ∈ c.constructors, ∀ p ∈ k.parameters, P p.type) ∧
        (∀ g ∈ c.getters, P g.returns) ∧ ∀ s ∈ c.setters, ∀ t ∈ s.parameters, P t := by
  simp only [HostClass.types, List.forall_mem_append, List.forall_mem_flatMap, List.forall_mem_map,
    and_assoc]

end Facade.Host.HostClass

namespace Facade.Scala

open Host Outcome

/-- The name of a class as a type of its own, or the given host type if nothing stands for it. -/
def named (catalog : Catalog) (package name : String) (host : HostType) :
    Except HostType ScalaType :=
  (namedType? catalog package name).elim (.error host) .ok

mutual

/-- The types for a host type compare as those for the classes that it mentions. -/
theorem typeFor_compare {R : Comparison} (hR : Compatible R)
    {catalog catalog' : Catalog} {package : String} :
    ∀ t : HostType,
      (∀ name, t.mentions name = true →
        ∀ host, R _ _ (named catalog package name host) (named catalog' package name host)) →
      R _ _ (typeFor catalog package t) (typeFor catalog' package t)
  | .mk kind name arguments nullable, h => by
    have hname := h name (by simp [HostType.mentions])
    unfold typeFor
    cases kind with
    | plain => exact hR.refl _
    | boxed => exact hR.refl _
    | enumeration => exact hname _
    | object => exact hname _
    | applied =>
      dsimp only
      split
      . exact hR.refl _
      . apply hR.bind
        . apply typesFor_compare hR arguments
          intro name hmentions
          exact h name (by simp [HostType.mentions, hmentions])
        . exact fun _ => hR.refl _

theorem typesFor_compare {R : Comparison} (hR : Compatible R)
    {catalog catalog' : Catalog} {package : String} :
    ∀ ts : List HostType,
      (∀ name, HostType.anyMentions name ts = true →
        ∀ host, R _ _ (named catalog package name host) (named catalog' package name host)) →
      R _ _ (typesFor catalog package ts) (typesFor catalog' package ts)
  | [], _ => by
    unfold typesFor
    exact hR.refl _
  | t :: ts, h => by
    unfold typesFor
    apply hR.bind
    . apply typeFor_compare hR t
      intro name hmentions
      exact h name (by simp [HostType.anyMentions, hmentions])
    . intro type
      apply hR.bind
      . apply typesFor_compare hR ts
        intro name hmentions
        exact h name (by simp [HostType.anyMentions, hmentions])
      . exact fun _ => hR.refl _

end

/-- The wrappers that a type refers to, each as a type of its own. -/
def ScalaType.wrappers : ScalaType → List ScalaType
  | scalar _ _ => []
  | enumeration name qualified => [enumeration name qualified]
  | wrapper name qualified => [wrapper name qualified]
  | external _ => []
  | list element => element.wrappers
  | set element => element.wrappers
  | map key value => key.wrappers ++ value.wrappers
  | option value => value.wrappers

/-- Whether a type of a package is the wrapper of a class. -/
def Denotes (catalog : Catalog) (package : String) (type : ScalaType) (className : String) : Prop :=
  ∃ entry, catalog.get? className = some entry ∧ type = wrapperType entry package

theorem qualifiedName_of_wrapperType {entry entry' : Catalog.Entry} {package : String}
    (h : wrapperType entry package = wrapperType entry' package) :
    entry.qualifiedName = entry'.qualifiedName := by
  unfold wrapperType at h
  split at h
  . split at h
    . injection h
    . cases h
  . split at h
    . cases h
    . injection h

/-- A type is the wrapper of one class at most. -/
theorem Denotes.unique {catalog : Catalog} (hcatalog : catalog.WellFormed) {package : String}
    {type : ScalaType} {name name' : String} (h : Denotes catalog package type name)
    (h' : Denotes catalog package type name') : name = name' := by
  obtain ⟨entry, hentry, htype⟩ := h
  obtain ⟨entry', hentry', htype'⟩ := h'
  apply hcatalog.eq_of_qualifiedName hentry hentry'
  exact qualifiedName_of_wrapperType (htype.symm.trans htype')

theorem render_wrapperType (entry : Catalog.Entry) (package : String) :
    (wrapperType entry package).render = reference entry package := by
  unfold wrapperType
  split <;> rfl

theorem wrappers_wrapperType (entry : Catalog.Entry) (package : String) :
    (wrapperType entry package).wrappers = [wrapperType entry package] := by
  unfold wrapperType
  split <;> rfl

theorem denotes_of_namedType? {catalog : Catalog} {package name : String} {type w : ScalaType}
    (h : namedType? catalog package name = some type) (hw : w ∈ type.wrappers) :
    Denotes catalog package w name := by
  unfold namedType? at h
  split at h
  . next entry hentry =>
    cases h
    rw [wrappers_wrapperType, List.mem_singleton] at hw
    exact ⟨entry, hentry, hw⟩
  . obtain ⟨expression, -, rfl⟩ := Option.map_eq_some_iff.mp h
    cases hw

/-- Whether a predicate holds of the types without arguments, and of collections of what it holds of. -/
structure Hereditary (P : ScalaType → Prop) (catalog : Catalog) (package : String) : Prop where
  scalar : ∀ s boxed, P (.scalar s boxed)
  named : ∀ name type, namedType? catalog package name = some type → P type
  missing : P Collection.missing
  list : ∀ element, P element → P (.list element)
  set : ∀ element, P element → P (.set element)
  map : ∀ key value, P key → P value → P (.map key value)

section

variable {P : ScalaType → Prop} {catalog : Catalog} {package : String}

theorem Hereditary.apply (hP : Hereditary P catalog package) (collection : Collection)
    {types : List ScalaType} (h : ∀ type ∈ types, P type) : P (collection.apply types) := by
  have hargument : ∀ n, P (((types.drop n).head?).getD Collection.missing) := by
    intro n
    cases hhead : (types.drop n).head? with
    | none => exact hP.missing
    | some type => exact h type (List.mem_of_mem_drop (List.mem_of_head? hhead))
  cases collection with
  | list => exact hP.list _ (hargument 0)
  | set => exact hP.set _ (hargument 0)
  | map => exact hP.map _ _ (hargument 0) (hargument 1)

mutual

theorem Hereditary.typeFor (hP : Hereditary P catalog package) :
    ∀ (t : HostType) (type : ScalaType), typeFor catalog package t = .ok type → P type
  | .mk kind name arguments nullable, type, h => by
    have hnamed : (namedType? catalog package name).elim
        (.error (.mk kind name arguments nullable)) .ok = (.ok type : Except HostType ScalaType) →
        P type := by
      intro hok
      cases hname : namedType? catalog package name with
      | none =>
        rw [hname] at hok
        cases hok
      | some found =>
        rw [hname] at hok
        cases hok
        exact hP.named name _ hname
    unfold Scala.typeFor at h
    cases kind with
    | plain =>
      cases hs : Scalar.ofPlain? name <;> simp [hs] at h
      subst h
      exact hP.scalar _ _
    | boxed =>
      cases hs : Scalar.ofBoxed? name <;> simp [hs] at h
      subst h
      exact hP.scalar _ _
    | enumeration => exact hnamed h
    | object => exact hnamed h
    | applied =>
      dsimp only at h
      split at h
      . cases h
      . next collection _ =>
        obtain ⟨types, htypes, h⟩ := bind_eq_ok_iff.mp h
        cases h
        exact hP.apply collection (hP.typesFor arguments types htypes)

theorem Hereditary.typesFor (hP : Hereditary P catalog package) :
    ∀ (ts : List HostType) (types : List ScalaType), typesFor catalog package ts = .ok types →
      ∀ type ∈ types, P type
  | [], types, h => by
    unfold Scala.typesFor at h
    cases h
    simp
  | t :: ts, types, h => by
    unfold Scala.typesFor at h
    obtain ⟨first, hfirst, h⟩ := bind_eq_ok_iff.mp h
    obtain ⟨rest, hrest, h⟩ := bind_eq_ok_iff.mp h
    cases h
    intro type htype
    obtain rfl | htype := List.mem_cons.mp htype
    . exact hP.typeFor t type hfirst
    . exact hP.typesFor ts rest hrest type htype

end

end

theorem denotes_of_typeFor {catalog : Catalog} {package : String} (t : HostType) (type : ScalaType)
    (h : typeFor catalog package t = .ok type) :
    ∀ w ∈ type.wrappers, ∃ name, Denotes catalog package w name := by
  have hhereditary : Hereditary
      (fun type => ∀ w ∈ type.wrappers, ∃ name, Denotes catalog package w name) catalog package :=
    { scalar := fun s boxed w hw => nomatch hw
      named := fun name type htype w hw => ⟨name, denotes_of_namedType? htype hw⟩
      missing := fun w hw => nomatch hw
      list := fun element helement => helement
      set := fun element helement => helement
      map := by
        intro key value hkey hvalue w hw
        obtain hw | hw := List.mem_append.mp hw
        . exact hkey w hw
        . exact hvalue w hw }
  exact hhereditary.typeFor t type h

end Facade.Scala
