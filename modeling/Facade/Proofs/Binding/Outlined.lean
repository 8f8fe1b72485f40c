import Facade.Proofs.Binding.Bound
import Facade.Proofs.Outline.Spec

/-!
This module contains the proofs about the wrapper of a record: which member of the outline is for
which constructor, method or field, by way of the description of the class.
-/

namespace Facade.Record

open Host Outcome Matching Scala Settings

/-- What the outline of a class holds, member by member of its record. -/
structure Outlined (markers : Markers) (enums : List String) (r : Record)
    (context : Outline.Context) (constructors : List Outline.Constructor)
    (bound computed : List Outline.Getter) (setters : List Outline.Setter) : Prop where
  constructors : List.Forall₂
    (fun k l => List.Forall₂
      (fun p q => ∃ d, p.DescribedBy markers enums d ∧ q.Outlines context d)
      k.parameters l.parameters)
    r.publicConstructors constructors
  bound : List.Forall₂
    (fun (f, m) g => f ∈ r.instanceFields ∧ ∃ d, m.GetterDescribedBy markers enums r.name d ∧
      context.host.getterFor? f.name = some d ∧ g.Outlines context d)
    (r.fieldReaders enums) bound
  computed : List.Forall₂
    (fun m g => ∃ d, m.GetterDescribedBy markers enums r.name d ∧ d.field = none ∧
      g.Outlines context d)
    (r.computedReaders enums) computed
  setters : List.Forall₂
    (fun (f, m) s => f ∈ r.instanceFields ∧ ∃ d, m.SetterDescribedBy markers enums r.name d ∧
      context.host.setterFor? f.name = some d ∧ s.Outlines context f.name d)
    (r.fieldAssigners enums) setters

theorem Serves.forall₂_firsts {accepts : Field → Method → Bool}
    {describedBy : Method → HostClass.Method → Prop} {fields : List Field} {items : List Method}
    {methods : List HostClass.Method} (h : Serves accepts describedBy fields items methods)
    {γ : Type} {R : Field → HostClass.Field → Prop} {flag : HostClass.Field → Bool}
    {S : String → HostClass.Method → γ → Prop} {gs : List HostClass.Field} {os : List γ}
    (hfields : List.Forall₂ R fields gs) (hname : ∀ f g, R f g → g.name = f.name)
    (hflag : ∀ f g, R f g → flag g = (items.find? (accepts f)).isSome)
    (hflagged : List.Forall₂
      (fun g o => ∃ d, methods.find? (·.field == some g.name) = some d ∧ S g.name d o)
      (gs.filter flag) os) :
    List.Forall₂
      (fun (f, m) o => f ∈ fields ∧ ∃ d, describedBy m d ∧
        methods.find? (·.field == some f.name) = some d ∧ S f.name d o)
      (firsts accepts fields items) os := by
  apply Matching.forall₂_firsts hfields hflag hflagged
  rintro f hf g o m hfg ⟨d, hd, ho⟩ hm
  have hrel := h f hf
  rw [hname f g hfg] at hd ho
  rw [hm, hd] at hrel
  cases hrel with
  | some hmd => exact ⟨hf, d, hmd, hd, ho⟩

/-- The outline of a class that is no enumeration holds the members of its record. -/
theorem outlined_of_ofClass {markers : Markers} {enums : List String} {r : Record}
    {c : HostClass} {catalog : Catalog} {o : Outline} (hclass : r.isEnum = false)
    (hdescribe : describe markers enums r = .ok c) (houtline : Outline.ofClass catalog c = .ok o) :
    ∃ constructors bound computed setters,
      o.body = .members constructors (bound ++ computed) setters ∧
        Outlined markers enums r ⟨catalog, c, o.package⟩ constructors bound computed setters := by
  obtain ⟨-, hconstructors, hbound⟩ := bound_of_describe hclass hdescribe
  obtain ⟨entry, name, -, -, hbody, ho⟩ := Outline.ofClass_cases houtline
  have hpackage : o.package = entry.package := by rw [ho]
  rw [← hpackage] at hbody
  obtain ⟨henum, -⟩ | ⟨-, hbody⟩ := Outline.bodyOf_cases hbody
  . exact absurd (henum.symm.trans hbound.isEnum) Bool.noConfusion
  obtain ⟨ks, bound, computed, ss, hmembers, hspec⟩ := Outline.members_outline hbody
  refine ⟨ks, bound, computed, ss, hmembers, ?_, ?_, ?_, ?_⟩
  . apply (forall₂_comp hconstructors hspec.constructors).imp
    rintro k l ⟨described, hk, hl⟩
    exact forall₂_comp hk hl
  . exact hbound.getters.forall₂_firsts (S := fun _ => Outline.Getter.Outlines _) hbound.fields
      (fun f g hfg => hfg.described.name) (fun f g hfg => hfg.hasGetter) hspec.bound
  . have hcomputed : ∀ d ∈ c.computed, d.field = none := by
      intro d hd
      exact Option.isNone_iff_eq_none.mp (List.mem_filter.mp hd).2
    have houtlines := (List.forall₂_and_left _ _).mpr ⟨hcomputed, hspec.computed⟩
    exact forall₂_comp hbound.computed houtlines
  . exact hbound.setters.forall₂_firsts (S := Outline.Setter.Outlines _) hbound.fields
      (fun f g hfg => hfg.described.name) (fun f g hfg => hfg.hasSetter) hspec.setters

/-- The outline of a record, and nothing if the record or its class is refused. -/
def outlineOf (markers : Markers) (enums : List String) (catalog : Catalog) (r : Record) :
    Except Stop Outline := do
  let c ← (describe markers enums r).mapError Stop.refused
  Outline.ofClass catalog c

theorem exists_outline_of_map {α : Type} {markers : Markers} {enums : List String}
    {catalog : Catalog} {r : Record} {f : Outline → α} {a : α}
    (h : (outlineOf markers enums catalog r).map f = .ok a) :
    ∃ c o, describe markers enums r = .ok c ∧ Outline.ofClass catalog c = .ok o ∧ f o = a := by
  obtain ⟨o, hrun, ho⟩ := map_eq_ok_iff.mp h
  obtain ⟨c, hdescribe, houtline⟩ := bind_eq_ok_iff.mp hrun
  exact ⟨c, o, mapError_eq_ok_iff.mp hdescribe, houtline, ho⟩

/-- Where members stand: the enumerations of the batch, its catalog and the package of a wrapper. -/
structure Place where
  enums : List String
  catalog : Catalog
  package : String

/-- Whether the type of a member is for the type that a text names, which may be absent or not. -/
structure Place.Types (place : Place) (source : String) (type : Outline.MemberType) : Prop where
  host : ∃ plain nullable, typeNamed? place.enums source = some plain ∧
    type.host = plain.withNullable nullable
  mapped : typeFor place.catalog place.package type.host = .ok type.mapped

theorem types_of_stands {context : Outline.Context} {enums : List String} {source : String}
    {plain host : HostType} {nullable optional : Bool} {type : Outline.MemberType}
    (hplain : typeNamed? enums source = some plain) (hhost : host = plain.withNullable nullable)
    (htype : type.Stands context host optional) :
    Place.Types ⟨enums, context.catalog, context.package⟩ source type where
  host := ⟨plain, nullable, hplain, htype.host.trans hhost⟩
  mapped := by
    rw [htype.host]
    exact htype.mapped

end Facade.Record
