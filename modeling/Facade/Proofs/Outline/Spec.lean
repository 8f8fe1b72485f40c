import Facade.Proofs.Outline.Steps
import Facade.Proofs.Types

/-!
This module contains the proofs about what an outline holds: the members of the class in their
order, each with the type that stands for its host type.
-/

namespace Facade.Scala.Outline

open Host Outcome

variable {context : Context}

/-- Whether a member's type is the one for a host type. -/
structure MemberType.Stands (context : Context) (t : HostType) (optional : Bool)
    (type : MemberType) : Prop where
  host : type.host = t
  mapped : typeFor context.catalog context.package t = .ok type.mapped
  target : type.target = withNullable optional type.mapped
  nullable : type.nullable = optional

theorem stands_of_memberType {member : String} {host : HostType} {nullable : Bool}
    {type : MemberType} (h : memberType context member host nullable = .ok type) :
    type.Stands context host nullable := by
  unfold memberType typeForMember at h
  cases hmapped : typeFor context.catalog context.package host with
  | error unresolved => simp [hmapped] at h
  | ok mapped =>
    simp only [hmapped, Except.ok.injEq] at h
    subst h
    exact ⟨rfl, hmapped, rfl, rfl⟩

structure Parameter.Outlines (context : Context) (p : HostClass.Parameter) (q : Parameter) :
    Prop where
  name : q.hostName = p.name
  type : q.type.Stands context p.type (HostClass.parameterNullable p)

def Constructor.Outlines (context : Context) (c : HostClass.Constructor) (k : Constructor) : Prop :=
  List.Forall₂ (Parameter.Outlines context) c.parameters k.parameters

structure Getter.Outlines (context : Context) (m : HostClass.Method) (g : Getter) : Prop where
  name : g.hostMethod = m.name
  type : g.type.Stands context m.returns (context.host.getterNullable m)
  throws : g.throws = m.throws
  field : g.field = m.field

structure Setter.Outlines (context : Context) (field : String) (m : HostClass.Method) (s : Setter) :
    Prop where
  name : s.hostMethod = m.name
  type : ∃ t, m.parameters = [t] ∧ s.type.Stands context t (context.host.setterNullable m)
  throws : s.throws = m.throws
  field : s.field = field

theorem parameters_outline {index : Nat} {pool : NamePool} {ps : List HostClass.Parameter}
    {qs : List Parameter} (h : parameters context index pool ps = .ok qs) :
    List.Forall₂ (Parameter.Outlines context) ps qs := by
  obtain ⟨rest, hthreads⟩ := threads_parameters h
  apply hthreads.forall₂
  rintro pool p q rest ⟨hname, -, member, htype⟩
  exact ⟨hname, stands_of_memberType htype⟩

theorem constructors_outline {index : Nat} {cs : List HostClass.Constructor}
    {ks : List Constructor} (h : constructors context index cs = .ok ks) :
    List.Forall₂ (Constructor.Outlines context) cs ks := by
  apply (forall₂_constructors h).imp
  rintro c k ⟨index, hparameters⟩
  exact parameters_outline hparameters

theorem getter_outlines {pool rest : NamePool} {property : String} {m : HostClass.Method}
    {g : Getter} (h : getter context pool property m = .ok (g, rest)) :
    g.Outlines context m := by
  obtain ⟨-, type, htype, hg⟩ := getter_cases h
  rw [hg]
  exact ⟨rfl, stands_of_memberType htype, rfl, rfl⟩

theorem fieldGetters_outline {pool rest : NamePool} {fs : List HostClass.Field}
    {gs : List Getter} (h : fieldGetters context pool fs = .ok (gs, rest)) :
    List.Forall₂ (fun f g => ∃ m, context.host.getterFor? f.name = some m ∧ g.Outlines context m)
      fs gs := by
  apply (threads_fieldGetters h).forall₂
  rintro pool f g rest ⟨m, hm, hgetter⟩
  exact ⟨m, hm, getter_outlines hgetter⟩

theorem computedGetters_outline {pool rest : NamePool} {ms : List HostClass.Method}
    {gs : List Getter} (h : computedGetters context pool ms = .ok (gs, rest)) :
    List.Forall₂ (Getter.Outlines context) ms gs :=
  (threads_computedGetters h).forall₂ fun _ _ _ _ hgetter => getter_outlines hgetter

theorem setter_outlines {pool rest : NamePool} {field : String} {m : HostClass.Method}
    {s : Setter} (h : setter context pool field m = .ok (s, rest)) :
    s.Outlines context field m := by
  obtain ⟨-, t, type, ht, htype, hs⟩ := setter_cases h
  rw [hs]
  exact ⟨rfl, ⟨t, ht, stands_of_memberType htype⟩, rfl, rfl⟩

theorem setters_outline {pool : NamePool} {fs : List HostClass.Field} {ss : List Setter}
    (h : setters context pool fs = .ok ss) :
    List.Forall₂
      (fun f s => ∃ m, context.host.setterFor? f.name = some m ∧ s.Outlines context f.name m)
      fs ss := by
  obtain ⟨rest, hthreads⟩ := threads_setters h
  apply hthreads.forall₂
  rintro pool f s rest ⟨m, hm, hsetter⟩
  exact ⟨m, hm, setter_outlines hsetter⟩

/-- What the outline of a class that is no enumeration holds. -/
structure Members (context : Context) (ks : List Constructor) (bound computed : List Getter)
    (ss : List Setter) : Prop where
  constructors : List.Forall₂ (Constructor.Outlines context) context.host.constructors ks
  bound : List.Forall₂
    (fun f g => ∃ m, context.host.getterFor? f.name = some m ∧ g.Outlines context m)
    (context.host.fields.filter HostClass.Field.hasGetter) bound
  computed : List.Forall₂ (Getter.Outlines context) context.host.computed computed
  setters : List.Forall₂
    (fun f s => ∃ m, context.host.setterFor? f.name = some m ∧ s.Outlines context f.name m)
    (context.host.fields.filter HostClass.Field.hasSetter) ss

theorem members_outline {body : Body} (h : members context = .ok body) :
    ∃ ks bound computed ss, body = .members ks (bound ++ computed) ss ∧
      Members context ks bound computed ss := by
  obtain ⟨ks, bound, computed, ss, between, after, hconstructors, -, hbound, hcomputed, hsetters,
    rfl⟩ := members_cases h
  exact ⟨ks, bound, computed, ss, rfl,
    { constructors := constructors_outline hconstructors
      bound := fieldGetters_outline hbound
      computed := computedGetters_outline hcomputed
      setters := setters_outline hsetters }⟩

/-- The types of the members of an outline. -/
def memberTypes (o : Outline) : List MemberType :=
  match o.body with
  | .enumeration _ => []
  | .members constructors getters setters =>
    constructors.flatMap (fun k => k.parameters.map Parameter.type) ++ getters.map Getter.type ++
      setters.map Setter.type

/-- Whether a member's type is the one for a member of the class: a parameter of a constructor, what a
getter returns, or what a setter takes. -/
inductive MemberType.IsFor (context : Context) (type : MemberType) : Prop where
  | parameter {k : HostClass.Constructor} {p : HostClass.Parameter}
      (hk : k ∈ context.host.constructors) (hp : p ∈ k.parameters)
      (h : type.Stands context p.type (HostClass.parameterNullable p))
  | getter {m : HostClass.Method} (hm : m ∈ context.host.getters)
      (h : type.Stands context m.returns (context.host.getterNullable m))
  | setter {m : HostClass.Method} {t : HostType} (hm : m ∈ context.host.setters)
      (ht : m.parameters = [t]) (h : type.Stands context t (context.host.setterNullable m))

theorem Members.isFor {ks : List Constructor} {bound computed : List Getter} {ss : List Setter}
    (h : Members context ks bound computed ss) {type : MemberType}
    (htype : type ∈ ks.flatMap (fun k => k.parameters.map Parameter.type) ++
      (bound ++ computed).map Getter.type ++ ss.map Setter.type) : type.IsFor context := by
  simp only [List.mem_append, List.mem_flatMap, List.mem_map] at htype
  obtain (⟨k, hk, q, hq, rfl⟩ | ⟨g, hg | hg, rfl⟩) | ⟨s, hs, rfl⟩ := htype
  . obtain ⟨c, hc, hck⟩ := exists_of_mem_right h.constructors hk
    obtain ⟨p, hp, hpq⟩ := exists_of_mem_right hck hq
    exact .parameter hc hp hpq.type
  . obtain ⟨f, -, m, hm, hmg⟩ := exists_of_mem_right h.bound hg
    exact .getter (List.mem_of_find?_eq_some hm) hmg.type
  . obtain ⟨m, hm, hmg⟩ := exists_of_mem_right h.computed hg
    exact .getter (List.mem_filter.mp hm).1 hmg.type
  . obtain ⟨f, -, m, hm, hms⟩ := exists_of_mem_right h.setters hs
    obtain ⟨t, ht, hstands⟩ := hms.type
    exact .setter (List.mem_of_find?_eq_some hm) ht hstands

theorem isFor_of_mem_memberTypes {catalog : Catalog} {host : HostClass} {o : Outline}
    (h : ofClass catalog host = .ok o) {type : MemberType} (htype : type ∈ o.memberTypes) :
    type.IsFor ⟨catalog, host, o.package⟩ := by
  obtain ⟨entry, name, -, -, hbody, ho⟩ := ofClass_cases h
  have hpackage : o.package = entry.package := by rw [ho]
  unfold memberTypes at htype
  obtain ⟨-, constants, hconstants, -⟩ | ⟨-, hbody⟩ := bodyOf_cases hbody
  . rw [hconstants] at htype
    cases htype
  . obtain ⟨ks, bound, computed, ss, hmembers, hspec⟩ := members_outline hbody
    rw [hmembers] at htype
    rw [hpackage]
    exact hspec.isFor htype

theorem stands_of_mem_memberTypes {catalog : Catalog} {host : HostClass} {o : Outline}
    (h : ofClass catalog host = .ok o) {type : MemberType} (htype : type ∈ o.memberTypes) :
    ∃ t nullable, type.Stands ⟨catalog, host, o.package⟩ t nullable := by
  cases isFor_of_mem_memberTypes h htype with
  | parameter _ _ h => exact ⟨_, _, h⟩
  | getter _ h => exact ⟨_, _, h⟩
  | setter _ _ h => exact ⟨_, _, h⟩

/-- The wrappers in the types of members are those of classes of the catalog. -/
theorem denotes_of_mem_memberTypes {catalog : Catalog} {host : HostClass} {o : Outline}
    (h : ofClass catalog host = .ok o) {type : MemberType} (htype : type ∈ o.memberTypes)
    {w : ScalaType} (hw : w ∈ type.mapped.wrappers ∨ w ∈ type.target.wrappers) :
    ∃ name, Denotes catalog o.package w name := by
  obtain ⟨t, nullable, hstands⟩ := stands_of_mem_memberTypes h htype
  have hmapped : w ∈ type.mapped.wrappers := by
    obtain hw | hw := hw
    . exact hw
    . rw [hstands.target] at hw
      unfold withNullable at hw
      split at hw <;> exact hw
  exact denotes_of_typeFor t type.mapped hstands.mapped w hmapped

end Facade.Scala.Outline
