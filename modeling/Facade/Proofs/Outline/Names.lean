import Facade.Proofs.Binding.Bound
import Facade.Proofs.Names
import Facade.Proofs.Outline.Spec

/-!
This module contains the proofs about the names of members: which names are given out for others, what
each member is named for, and that the members that read a value are named as properties are.
-/

namespace Facade

open Text Host Outcome

namespace Text

/-- Whether a word starts with a letter from `A` to `Z` and goes on in lower case. -/
def isCapitalized : List Char → Bool
  | c :: d :: _ => decide (65 ≤ c.toNat) && decide (c.toNat ≤ 90) && !isCapital d
  | _ => false

end Text

namespace Host

/-- A property is no capitalized word: `URL` stays what it is, but `Option` becomes `option`. -/
theorem isCapitalized_decapitalize (cs : List Char) : isCapitalized (decapitalize cs) = false := by
  have hlower : ∀ c ds, isCapitalized (lower c ++ ds) = false := by
    intro c ds
    obtain ⟨d, rest, hd⟩ := exists_lower c
    have hcapital := not_capital_of_mem_lower (hd ▸ List.mem_cons_self)
    rw [hd, List.cons_append]
    unfold isCapitalized
    split
    . next heq =>
      rw [(List.cons.inj heq).1] at hcapital
      simp
      omega
    . rfl
  unfold decapitalize
  split
  . rfl
  . next c => simpa using hlower c []
  . next c d cs =>
    split
    . next hcapitals =>
      rw [Bool.and_eq_true] at hcapitals
      rw [isCapitalized, hcapitals.2, Bool.not_true, Bool.and_false]
    . exact hlower c (d :: cs)

end Host

namespace Scala

/-- Whether a name may be given out for a name. -/
def GivenFor (base name : String) : Prop :=
  ∃ free ∈ NamePool.variants base, safeName? free = some name

theorem safeName?_cases {name safe : String} (h : safeName? name = some safe) :
    (isReserved name = true ∧ safe = escaped name) ∨
      (isReserved name = false ∧ isIdentifier name = true ∧ safe = name) := by
  unfold safeName? at h
  split at h
  . next hreserved => exact .inl ⟨hreserved, (Option.some.inj h).symm⟩
  . next hreserved =>
    split at h
    . next hidentifier =>
      exact .inr ⟨by simpa using hreserved, hidentifier, (Option.some.inj h).symm⟩
    . cases h

theorem NamePool.givenFor_of_claim {pool pool' : NamePool} {base name : String}
    (h : pool.claim base = .ok (name, pool')) : GivenFor base name := by
  unfold claim at h
  split at h
  . cases h
  . split at h
    . next free safe hfree =>
      cases h
      obtain ⟨variant, hvariant, hsafe⟩ := List.exists_of_findSome?_eq_some hfree
      split at hsafe
      . cases hsafe
      . obtain ⟨_, hsafe, heq⟩ := Option.map_eq_some_iff.mp hsafe
        cases heq
        exact ⟨free, hvariant, hsafe⟩
    . cases h

theorem dot_not_mem_of_safeName? {name safe : String} (h : safeName? name = some safe) :
    '.' ∉ safe.toList := by
  obtain ⟨hreserved, rfl⟩ | ⟨-, hidentifier, rfl⟩ := safeName?_cases h
  . have hescaped : ∀ word ∈ reservedWords, '.' ∉ (escaped word).toList := by decide
    exact hescaped name (by simpa [isReserved] using hreserved)
  . intro hdot
    unfold isIdentifier at hidentifier
    split at hidentifier
    . next hnil =>
      rw [hnil] at hdot
      cases hdot
    . next c cs hcons =>
      simp only [Bool.and_eq_true, isNameTail, List.all_eq_true] at hidentifier
      rw [hcons] at hdot
      obtain rfl | hdot := List.mem_cons.mp hdot
      . have hstart := hidentifier.1.1
        revert hstart
        decide
      . have htail := hidentifier.1.2 '.' hdot
        revert htail
        decide

theorem ne_nil_of_safeName? {name safe : String} (h : safeName? name = some safe) :
    safe.toList ≠ [] := by
  obtain ⟨-, rfl⟩ | ⟨-, hidentifier, rfl⟩ := safeName?_cases h
  . simp [escaped]
  . intro hnil
    rw [isIdentifier, hnil] at hidentifier
    cases hidentifier

theorem ne_root_of_safeName? {name safe : String} (h : safeName? name = some safe) :
    safe ≠ "_root_" := by
  obtain ⟨hreserved, rfl⟩ | ⟨-, hidentifier, rfl⟩ := safeName?_cases h
  . have hescaped : ∀ word ∈ reservedWords, escaped word ≠ "_root_" := by decide
    exact hescaped name (by simpa [isReserved] using hreserved)
  . rintro rfl
    revert hidentifier
    decide

/-- A name that is given out for another is escaped, or is the same, or has a number in it. -/
theorem GivenFor.cases {base name : String} (h : GivenFor base name) :
    '`' ∈ name.toList ∨ name = base ∨ ∃ c ∈ name.toList, c.isDigit = true := by
  obtain ⟨free, hfree, hsafe⟩ := h
  obtain ⟨-, rfl⟩ | ⟨-, -, rfl⟩ := safeName?_cases hsafe
  . left
    simp [escaped]
  . right
    obtain rfl | hfree := List.mem_cons.mp hfree
    . exact .inl rfl
    . right
      obtain ⟨n, -, rfl⟩ := List.mem_map.mp hfree
      obtain ⟨c, hc⟩ : ∃ c, c ∈ (toString n).toList := by
        apply List.exists_mem_of_ne_nil
        rw [Nat.toString_eq_repr, Nat.toList_repr]
        exact Nat.toDigits_ne_nil
      refine ⟨c, ?_, ?_⟩
      . rw [String.toList_append]
        exact List.mem_append_right _ hc
      . exact isDigit_of_mem_toString hc

theorem standardTypes_capitalized :
    ∀ type ∈ standardTypes, isCapitalized type.toList = true ∧ '`' ∉ type.toList ∧
      type.toList.all (fun c => !c.isDigit) = true := by
  decide

theorem GivenFor.not_mem_standardTypes {base name : String} (h : GivenFor base name)
    (hbase : isCapitalized base.toList = false) : name ∉ standardTypes := by
  intro hstandard
  obtain ⟨hcapitalized, hescaped, hdigits⟩ := standardTypes_capitalized name hstandard
  obtain htick | rfl | ⟨c, hc, hdigit⟩ := h.cases
  . exact hescaped htick
  . rw [hbase] at hcapitalized
    cases hcapitalized
  . have hnone := List.all_eq_true.mp hdigits c hc
    rw [hdigit] at hnone
    cases hnone

theorem GivenFor.head?_of_set {base name : String} (h : GivenFor base name) {rest : List Char}
    (hbase : base.toList = "set".toList ++ rest) : name.toList.head? = some 's' := by
  obtain ⟨free, hfree, hsafe⟩ := h
  obtain ⟨rest', hrest⟩ : ∃ rest', free.toList = "set".toList ++ rest' := by
    obtain rfl | hfree := List.mem_cons.mp hfree
    . exact ⟨rest, hbase⟩
    . obtain ⟨n, -, rfl⟩ := List.mem_map.mp hfree
      refine ⟨rest ++ (toString n).toList, ?_⟩
      rw [String.toList_append, hbase, List.append_assoc]
  obtain ⟨hreserved, -⟩ | ⟨-, -, rfl⟩ := safeName?_cases hsafe
  -- No reserved word starts like this, so a name that does is not escaped.
  . have hwords : ∀ word ∈ reservedWords, word.toList.take 3 ≠ "set".toList := by decide
    have htake : free.toList.take 3 = "set".toList := by
      rw [hrest]
      rfl
    exact absurd htake (hwords free (by simpa [isReserved] using hreserved))
  . rw [hrest]
    rfl

namespace Outline

variable {context : Context}

theorem givenFor_of_claimName {pool pool' : NamePool} {base name : String}
    (h : claimName base pool = .ok (name, pool')) : GivenFor base name :=
  NamePool.givenFor_of_claim (claim_of_claimName h)

theorem forall_of_constants {P : String → String → Prop} {pool : NamePool}
    {hosts : List String} {cs : List Constant}
    (hclaims : ∀ {pool pool' : NamePool} {base name : String},
      claimName base pool = .ok (name, pool') → P base name)
    (h : constants pool hosts = .ok cs) : ∀ c ∈ cs, c.host ∈ hosts ∧ P c.host c.name := by
  obtain ⟨rest, hthreads⟩ := threads_constants h
  have hmade : List.Forall₂ (fun host (c : Constant) => c.host = host ∧ P host c.name) hosts cs :=
    hthreads.forall₂ fun _ _ _ _ hmakes => hmakes.imp id hclaims
  intro c hc
  obtain ⟨host, hmem, rfl, hholds⟩ := exists_of_mem_right hmade hc
  exact ⟨hmem, hholds⟩

theorem parameters_named {index : Nat} {pool : NamePool} {ps : List HostClass.Parameter}
    {qs : List Parameter} (h : parameters context index pool ps = .ok qs) :
    ∀ q ∈ qs, ∃ base, GivenFor base q.name := by
  obtain ⟨rest, hthreads⟩ := threads_parameters h
  have hgiven : List.Forall₂ (fun (p : HostClass.Parameter) (q : Parameter) =>
      GivenFor p.name q.name) ps qs :=
    hthreads.forall₂ fun _ _ _ _ hmakes => givenFor_of_claimName hmakes.2.1
  intro q hq
  obtain ⟨p, -, hp⟩ := exists_of_mem_right hgiven hq
  exact ⟨p.name, hp⟩

theorem constructors_named {index : Nat} {cs : List HostClass.Constructor} {ks : List Constructor}
    (h : constructors context index cs = .ok ks) :
    ∀ k ∈ ks, ∀ q ∈ k.parameters, ∃ base, GivenFor base q.name := by
  intro k hk
  obtain ⟨c, -, index, hparameters⟩ := exists_of_mem_right (forall₂_constructors h) hk
  exact parameters_named hparameters

def Getter.Reads (g : Getter) (property : String) (m : HostClass.Method) : Prop :=
  GivenFor property g.name ∧ g.hostMethod = m.name

theorem getter_reads {pool rest : NamePool} {property : String} {m : HostClass.Method}
    {g : Getter} (h : getter context pool property m = .ok (g, rest)) : g.Reads property m :=
  ⟨givenFor_of_claimName (getter_cases h).1, (getter_outlines h).name⟩

theorem fieldGetters_read {pool rest : NamePool} {fs : List HostClass.Field}
    {gs : List Getter} (h : fieldGetters context pool fs = .ok (gs, rest)) :
    ∀ g ∈ gs, ∃ f ∈ fs, ∃ m, context.host.getterFor? f.name = some m ∧ g.Reads f.name m := by
  have hread : List.Forall₂ (fun f (g : Getter) =>
      ∃ m, context.host.getterFor? f.name = some m ∧ g.Reads f.name m) fs gs := by
    apply (threads_fieldGetters h).forall₂
    rintro pool f g rest ⟨m, hm, hgetter⟩
    exact ⟨m, hm, getter_reads hgetter⟩
  exact fun g hg => exists_of_mem_right hread hg

theorem computedGetters_read {pool rest : NamePool} {ms : List HostClass.Method}
    {gs : List Getter} (h : computedGetters context pool ms = .ok (gs, rest)) :
    ∀ g ∈ gs, ∃ m ∈ ms, g.Reads (propertyOf m) m := by
  have hread : List.Forall₂ (fun m (g : Getter) => g.Reads (propertyOf m) m) ms gs :=
    (threads_computedGetters h).forall₂ fun _ _ _ _ hgetter => getter_reads hgetter
  exact fun g hg => exists_of_mem_right hread hg

def Setter.Calls (s : Setter) (m : HostClass.Method) : Prop :=
  GivenFor m.name s.name ∧ s.hostMethod = m.name

theorem setters_call {pool : NamePool} {fs : List HostClass.Field} {ss : List Setter}
    (h : setters context pool fs = .ok ss) :
    ∀ s ∈ ss, ∃ f ∈ fs, ∃ m, context.host.setterFor? f.name = some m ∧ s.Calls m := by
  obtain ⟨rest, hthreads⟩ := threads_setters h
  have hcalls : List.Forall₂ (fun f (s : Setter) =>
      ∃ m, context.host.setterFor? f.name = some m ∧ s.Calls m) fs ss := by
    apply hthreads.forall₂
    rintro pool f s rest ⟨m, hm, hsetter⟩
    exact ⟨m, hm, givenFor_of_claimName (setter_cases hsetter).1, (setter_outlines hsetter).name⟩
  exact fun s hs => exists_of_mem_right hcalls hs

/-- What the members of a wrapper are named for, and which methods they call. -/
structure Spelled (host : HostClass) (constructors : List Constructor) (getters : List Getter)
    (setters : List Setter) : Prop where
  parameters : ∀ k ∈ constructors, ∀ q ∈ k.parameters, ∃ base, GivenFor base q.name
  getters : ∀ g ∈ getters,
    (∃ f ∈ host.fields, f.hasGetter = true ∧
      ∃ m, host.getterFor? f.name = some m ∧ g.Reads f.name m) ∨
    ∃ m ∈ host.computed, g.Reads (propertyOf m) m
  setters : ∀ s ∈ setters, ∃ f ∈ host.fields, f.hasSetter = true ∧
    ∃ m, host.setterFor? f.name = some m ∧ s.Calls m

theorem spelled_of_members {ks : List Constructor} {gs : List Getter} {ss : List Setter}
    (h : members context = .ok (.members ks gs ss)) : Spelled context.host ks gs ss := by
  obtain ⟨ks', bound, computed, ss', between, after, hconstructors, -, hbound, hcomputed, hsetters,
    hbody⟩ := members_cases h
  cases hbody
  constructor
  . exact constructors_named hconstructors
  . intro g hg
    obtain hg | hg := List.mem_append.mp hg
    . obtain ⟨f, hf, hreads⟩ := fieldGetters_read hbound g hg
      obtain ⟨hf, hgetter⟩ := List.mem_filter.mp hf
      exact .inl ⟨f, hf, hgetter, hreads⟩
    . exact .inr (computedGetters_read hcomputed g hg)
  . intro s hs
    obtain ⟨f, hf, hcalls⟩ := setters_call hsetters s hs
    obtain ⟨hf, hsetter⟩ := List.mem_filter.mp hf
    exact ⟨f, hf, hsetter, hcalls⟩

/-- What the members of a wrapper are named for. -/
structure Named (host : HostClass) (getters : List Getter) (setters : List Setter) : Prop where
  getters : ∀ g ∈ getters, (∃ f ∈ host.fields, f.hasGetter = true ∧ GivenFor f.name g.name) ∨
    ∃ m ∈ host.computed, GivenFor (propertyOf m) g.name
  setters : ∀ s ∈ setters, ∃ f ∈ host.fields, f.hasSetter = true ∧
    ∃ m, host.setterFor? f.name = some m ∧ GivenFor m.name s.name

theorem Named.exists_safeName? {host : HostClass} {getters : List Getter} {setters : List Setter}
    (h : Named host getters setters) {name : String}
    (hname : (∃ g ∈ getters, g.name = name) ∨ ∃ s ∈ setters, s.name = name) :
    ∃ free, safeName? free = some name := by
  obtain ⟨g, hg, rfl⟩ | ⟨s, hs, rfl⟩ := hname
  . obtain ⟨f, -, -, free, -, hsafe⟩ | ⟨m, -, free, -, hsafe⟩ := h.getters g hg
    . exact ⟨free, hsafe⟩
    . exact ⟨free, hsafe⟩
  . obtain ⟨f, -, -, m, -, free, -, hsafe⟩ := h.setters s hs
    exact ⟨free, hsafe⟩

theorem Spelled.named {host : HostClass} {constructors : List Constructor} {getters : List Getter}
    {setters : List Setter} (h : Spelled host constructors getters setters) :
    Named host getters setters := by
  constructor
  . intro g hg
    obtain ⟨f, hf, hgetter, m, -, hnamed, -⟩ | ⟨m, hm, hnamed, -⟩ := h.getters g hg
    . exact .inl ⟨f, hf, hgetter, hnamed⟩
    . exact .inr ⟨m, hm, hnamed⟩
  . intro s hs
    obtain ⟨f, hf, hsetter, m, hm, hnamed, -⟩ := h.setters s hs
    exact ⟨f, hf, hsetter, m, hm, hnamed⟩

end Outline

end Scala

namespace Record

open Settings

theorem decapitalized_of_propertyOf? {rest : List Char} {property : String}
    (h : propertyOf? rest = some property) : isCapitalized property.toList = false := by
  unfold propertyOf? at h
  split at h
  . cases h
  . split at h
    . cases h
      rw [String.toList_ofList]
      exact isCapitalized_decapitalize _
    . cases h

theorem decapitalized_of_getterProperty? {method property : String} {isBoolean : Bool}
    (h : getterProperty? method isBoolean = some property) :
    isCapitalized property.toList = false := by
  unfold getterProperty? at h
  split at h
  . cases h
  . obtain ⟨rest, -, h⟩ := Option.bind_eq_some_iff.mp h
    exact decapitalized_of_propertyOf? h

theorem decapitalized_propertyOf (m : HostClass.Method) :
    isCapitalized (Scala.Outline.propertyOf m).toList = false := by
  unfold Scala.Outline.propertyOf
  cases hproperty : getterProperty? m.name m.returns.isBoolean with
  | some property => exact decapitalized_of_getterProperty? hproperty
  | none =>
    rw [Option.getD_none, String.toList_ofList]
    exact isCapitalized_decapitalize _

theorem set_of_setterProperty? {method property : String}
    (h : setterProperty? method = some property) : ∃ rest, method.toList = "set".toList ++ rest := by
  obtain ⟨rest, hrest, -⟩ := Option.bind_eq_some_iff.mp h
  exact ⟨rest, dropStart?_eq_some hrest⟩

variable {markers : Markers} {enums : List String} {r : Record} {c : HostClass}

theorem Field.exists_getterProperty? {f : Field} {m : Method} (h : f.isReadBy enums m = true) :
    ∃ isBoolean, getterProperty? m.name isBoolean = some f.name := by
  obtain ⟨⟨property, type⟩, hproperty, hhas⟩ := (Option.any_eq_true _ _).mp h
  rw [Field.name_of_hasProperty hhas]
  unfold Method.read? at hproperty
  split at hproperty
  . obtain ⟨type', -, hproperty⟩ := Option.bind_eq_some_iff.mp hproperty
    obtain ⟨property', hproperty, heq⟩ := Option.map_eq_some_iff.mp hproperty
    cases heq
    exact ⟨_, hproperty⟩
  . cases hproperty

theorem decapitalized_of_hasGetter (hclass : r.isEnum = false)
    (h : describe markers enums r = .ok c) {f : HostClass.Field} (hf : f ∈ c.fields)
    (hgetter : f.hasGetter = true) : isCapitalized f.name.toList = false := by
  -- A field has a getter only if a method of the record reads the property that the field is named for.
  obtain ⟨-, -, hbound⟩ := bound_of_describe hclass h
  obtain ⟨g, -, hgf⟩ := exists_of_mem_right hbound.fields hf
  rw [hgf.hasGetter] at hgetter
  obtain ⟨m, hm⟩ := Option.isSome_iff_exists.mp hgetter
  obtain ⟨isBoolean, hproperty⟩ := Field.exists_getterProperty? (List.find?_some hm)
  rw [hgf.described.name]
  exact decapitalized_of_getterProperty? hproperty

theorem exists_getterProperty?_of_getterFor? (hclass : r.isEnum = false)
    (h : describe markers enums r = .ok c) {f : HostClass.Field} (hf : f ∈ c.fields)
    {m : HostClass.Method} (hm : c.getterFor? f.name = some m) :
    ∃ isBoolean, getterProperty? m.name isBoolean = some f.name := by
  obtain ⟨-, -, hbound⟩ := bound_of_describe hclass h
  obtain ⟨g, hg, hgf⟩ := exists_of_mem_right hbound.fields hf
  rw [hgf.described.name] at hm ⊢
  obtain ⟨m', hread, hdescribed⟩ := hbound.getters.exists_of_find? hg hm
  rw [hdescribed.name]
  exact Field.exists_getterProperty? hread

theorem set_of_setterFor? (hclass : r.isEnum = false) (h : describe markers enums r = .ok c)
    {f : HostClass.Field} (hf : f ∈ c.fields) {m : HostClass.Method}
    (hm : c.setterFor? f.name = some m) : ∃ rest, m.name.toList = "set".toList ++ rest := by
  obtain ⟨-, -, hbound⟩ := bound_of_describe hclass h
  obtain ⟨g, hg, hgf⟩ := exists_of_mem_right hbound.fields hf
  rw [hgf.described.name] at hm
  obtain ⟨m', hassigned, hdescribed⟩ := hbound.setters.exists_of_find? hg hm
  obtain ⟨property, hproperty, -⟩ := (Option.any_eq_true _ _).mp hassigned
  obtain ⟨p, -, hproperty, -⟩ := Method.exists_of_assigned? hproperty
  rw [hdescribed.name]
  exact set_of_setterProperty? hproperty

end Record

end Facade
