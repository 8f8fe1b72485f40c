import Facade.Proofs.Outcome
import Facade.Scala.Outline

/-!
This module contains the lemmas that take the outline of a class apart: which claims are made on which
pools for its members, and what they are made from. What is proved about outlines is proved from them.
-/

namespace Facade.Scala

open Host Outcome

/-- Whether items are made from others, one after the other, each with the pool that the one before
it has left. -/
inductive NamePool.Threads {α β : Type} (Makes : NamePool → α → β → NamePool → Prop) :
    NamePool → List α → List β → NamePool → Prop where
  | nil {pool : NamePool} : Threads Makes pool [] [] pool
  | cons {pool between rest : NamePool} {a : α} {b : β} {as : List α} {bs : List β}
      (hfirst : Makes pool a b between) (hothers : Threads Makes between as bs rest) :
      Threads Makes pool (a :: as) (b :: bs) rest

theorem NamePool.Threads.forall₂ {α β : Type} {Makes : NamePool → α → β → NamePool → Prop}
    {R : α → β → Prop} {pool rest : NamePool} {as : List α} {bs : List β}
    (h : Threads Makes pool as bs rest) (hmakes : ∀ pool a b rest, Makes pool a b rest → R a b) :
    List.Forall₂ R as bs := by
  induction h with
  | nil => exact .nil
  | cons hfirst _ ih => exact .cons (hmakes _ _ _ _ hfirst) ih

namespace Outline

variable {context : Context}

open NamePool (Threads)

theorem claim_of_claimName {pool rest : NamePool} {base name : String}
    (h : claimName base pool = .ok (name, rest)) : pool.claim base = .ok (name, rest) := by
  unfold claimName at h
  split at h
  . next claimed hclaim =>
    cases h
    exact hclaim
  . cases h

section Members

variable {pool rest : NamePool}

theorem threads_parameters {index : Nat} {ps : List HostClass.Parameter} {qs : List Parameter}
    (h : parameters context index pool ps = .ok qs) :
    ∃ rest, Threads (fun pool p q rest => q.hostName = p.name ∧
      claimName p.name pool = .ok (q.name, rest) ∧ ∃ member,
        memberType context member p.type (HostClass.parameterNullable p) = .ok q.type)
      pool ps qs rest := by
  induction ps generalizing pool qs with
  | nil =>
    cases h
    exact ⟨pool, .nil⟩
  | cons p ps ih =>
    obtain ⟨⟨name, between⟩, hname, h⟩ := bind_eq_ok_iff.mp h
    obtain ⟨type, htype, h⟩ := bind_eq_ok_iff.mp h
    obtain ⟨others, hothers, h⟩ := bind_eq_ok_iff.mp h
    cases h
    obtain ⟨rest, hrest⟩ := ih hothers
    exact ⟨rest, .cons ⟨rfl, hname, _, htype⟩ hrest⟩

theorem forall₂_constructors {index : Nat} {cs : List HostClass.Constructor}
    {ks : List Constructor} (h : constructors context index cs = .ok ks) :
    List.Forall₂ (fun c k => ∃ index, parameters context index .empty c.parameters =
      .ok k.parameters) cs ks := by
  induction cs generalizing index ks with
  | nil =>
    cases h
    exact .nil
  | cons c cs ih =>
    obtain ⟨first, hfirst, h⟩ := bind_eq_ok_iff.mp h
    obtain ⟨others, hothers, h⟩ := bind_eq_ok_iff.mp h
    cases h
    exact .cons ⟨index, hfirst⟩ (ih hothers)

theorem getter_cases {property : String} {m : HostClass.Method} {g : Getter}
    (h : getter context pool property m = .ok (g, rest)) :
    claimName property pool = .ok (g.name, rest) ∧ ∃ type,
      memberType context (Record.methodName context.host.name m.name) m.returns
        (context.host.getterNullable m) = .ok type ∧
      g = ⟨m.name, g.name, type, m.throws, m.field⟩ := by
  obtain ⟨⟨name, between⟩, hname, h⟩ := bind_eq_ok_iff.mp h
  obtain ⟨type, htype, h⟩ := bind_eq_ok_iff.mp h
  cases h
  exact ⟨hname, type, htype, rfl⟩

theorem threads_fieldGetters {fs : List HostClass.Field} {gs : List Getter}
    (h : fieldGetters context pool fs = .ok (gs, rest)) :
    Threads (fun pool f g rest => ∃ m, context.host.getterFor? f.name = some m ∧
      getter context pool f.name m = .ok (g, rest)) pool fs gs rest := by
  induction fs generalizing pool gs with
  | nil =>
    cases h
    exact .nil
  | cons f fs ih =>
    unfold fieldGetters at h
    split at h
    . cases h
    . next m hm =>
      obtain ⟨⟨first, between⟩, hfirst, h⟩ := bind_eq_ok_iff.mp h
      obtain ⟨⟨others, after⟩, hothers, h⟩ := bind_eq_ok_iff.mp h
      cases h
      exact .cons ⟨m, hm, hfirst⟩ (ih hothers)

theorem threads_computedGetters {ms : List HostClass.Method} {gs : List Getter}
    (h : computedGetters context pool ms = .ok (gs, rest)) :
    Threads (fun pool m g rest => getter context pool (propertyOf m) m = .ok (g, rest))
      pool ms gs rest := by
  induction ms generalizing pool gs with
  | nil =>
    cases h
    exact .nil
  | cons m ms ih =>
    obtain ⟨⟨first, between⟩, hfirst, h⟩ := bind_eq_ok_iff.mp h
    obtain ⟨⟨others, after⟩, hothers, h⟩ := bind_eq_ok_iff.mp h
    cases h
    exact .cons hfirst (ih hothers)

theorem setter_cases {field : String} {m : HostClass.Method} {s : Setter}
    (h : setter context pool field m = .ok (s, rest)) :
    claimName m.name pool = .ok (s.name, rest) ∧ ∃ t type, m.parameters = [t] ∧
      memberType context (Record.methodName context.host.name m.name) t
        (context.host.setterNullable m) = .ok type ∧
      s = ⟨m.name, s.name, type, m.throws, field⟩ := by
  unfold setter at h
  split at h
  . next t ht =>
    obtain ⟨⟨name, between⟩, hname, h⟩ := bind_eq_ok_iff.mp h
    obtain ⟨type, htype, h⟩ := bind_eq_ok_iff.mp h
    cases h
    exact ⟨hname, t, type, ht, htype, rfl⟩
  . cases h

theorem threads_setters {fs : List HostClass.Field} {ss : List Setter}
    (h : setters context pool fs = .ok ss) :
    ∃ rest, Threads (fun pool f s rest => ∃ m, context.host.setterFor? f.name = some m ∧
      setter context pool f.name m = .ok (s, rest)) pool fs ss rest := by
  induction fs generalizing pool ss with
  | nil =>
    cases h
    exact ⟨pool, .nil⟩
  | cons f fs ih =>
    unfold setters at h
    split at h
    . cases h
    . next m hm =>
      obtain ⟨⟨first, between⟩, hfirst, h⟩ := bind_eq_ok_iff.mp h
      obtain ⟨others, hothers, h⟩ := bind_eq_ok_iff.mp h
      cases h
      obtain ⟨rest, hrest⟩ := ih hothers
      exact ⟨rest, .cons ⟨m, hm, hfirst⟩ hrest⟩

theorem threads_constants {hosts : List String} {cs : List Constant}
    (h : constants pool hosts = .ok cs) :
    ∃ rest, Threads (fun pool host c rest => c.host = host ∧
      claimName host pool = .ok (c.name, rest)) pool hosts cs rest := by
  induction hosts generalizing pool cs with
  | nil =>
    cases h
    exact ⟨pool, .nil⟩
  | cons host hosts ih =>
    obtain ⟨⟨name, between⟩, hname, h⟩ := bind_eq_ok_iff.mp h
    obtain ⟨others, hothers, h⟩ := bind_eq_ok_iff.mp h
    cases h
    obtain ⟨rest, hrest⟩ := ih hothers
    exact ⟨rest, .cons ⟨rfl, hname⟩ hrest⟩

end Members

/-- The members of a class are named from one pool, those that read values first. -/
theorem members_cases {body : Body} (h : members context = .ok body) :
    ∃ ks bound computed ss between after,
      constructors context 0 context.host.constructors = .ok ks ∧
      checkErased context.host.name [([erasedHost context.host.name], none)] 0 ks = .ok () ∧
      fieldGetters context .members (context.host.fields.filter HostClass.Field.hasGetter) =
        .ok (bound, between) ∧
      computedGetters context between context.host.computed = .ok (computed, after) ∧
      setters context after (context.host.fields.filter HostClass.Field.hasSetter) = .ok ss ∧
      body = .members ks (bound ++ computed) ss := by
  obtain ⟨ks, hconstructors, h⟩ := bind_eq_ok_iff.mp h
  obtain ⟨⟨⟩, hcheck, h⟩ := bind_eq_ok_iff.mp h
  obtain ⟨⟨bound, between⟩, hbound, h⟩ := bind_eq_ok_iff.mp h
  obtain ⟨⟨computed, after⟩, hcomputed, h⟩ := bind_eq_ok_iff.mp h
  obtain ⟨ss, hsetters, h⟩ := bind_eq_ok_iff.mp h
  cases h
  exact ⟨ks, bound, computed, ss, between, after, hconstructors, hcheck, hbound, hcomputed,
    hsetters, rfl⟩

theorem bodyOf_cases {body : Body} (h : bodyOf context = .ok body) :
    (context.host.isEnum = true ∧ ∃ cs, body = .enumeration cs ∧
      constants (NamePool.members.reserve companionMembers) context.host.constants = .ok cs) ∨
    (context.host.isEnum = false ∧ members context = .ok body) := by
  unfold bodyOf at h
  split at h
  . next henum =>
    obtain ⟨cs, hconstants, h⟩ := bind_eq_ok_iff.mp h
    cases h
    exact .inl ⟨henum, cs, rfl, hconstants⟩
  . next hclass => exact .inr ⟨by simpa using hclass, h⟩

/-- What an outline takes from the catalog and from its class. -/
theorem ofClass_cases {catalog : Catalog} {host : HostClass} {o : Outline}
    (h : ofClass catalog host = .ok o) :
    ∃ entry name, catalog.get? host.name = some entry ∧
      safeName? (pascalCase entry.name) = some name ∧
      bodyOf ⟨catalog, host, entry.package⟩ = .ok o.body ∧
      o = ⟨host.name, entry.package, name, pascalCase entry.name, o.body⟩ := by
  unfold ofClass at h
  split at h
  . cases h
  . next entry hentry =>
    dsimp only at h
    split at h
    . cases h
    . next name hname =>
      obtain ⟨body, hbody, h⟩ := bind_eq_ok_iff.mp h
      cases h
      exact ⟨entry, name, hentry, hname, hbody, rfl⟩

end Outline

end Facade.Scala
