import Facade.Proofs.Binding.Links
import Facade.Proofs.Nullability
import Facade.Proofs.Resolution
import Facade.Proofs.TypeTexts

/-!
This module contains the proofs about the nodes of types that are read from texts. What is known about a
node, its name, its arguments and whether it may be absent are kept apart, and go together at every node.
So no member that holds a primitive value is an optional one.
-/

namespace Facade

open Host Outcome

namespace Host

theorem Scalar.boxedName?_ne_plainName (s s' : Scalar) : s.boxedName? ≠ some s'.plainName := by
  cases s <;> cases s' <;> decide

namespace HostType

/-- Whether a type stands at a depth in another one. That one stands in itself at depth zero, and what
stands in one of its arguments is one deeper. -/
inductive NodeAt : HostType → Nat → HostType → Prop where
  | root (t : HostType) : NodeAt t 0 t
  | argument {kind : TypeKind} {name : String} {arguments : List HostType} {nullable : Bool}
      {a u : HostType} {depth : Nat} (ha : a ∈ arguments) (h : NodeAt a depth u) :
      NodeAt (mk kind name arguments nullable) (depth + 1) u

/-- Whether what is known about a type goes together with its name and its arguments. -/
structure WellFormed (enums : List String) (t : HostType) : Prop where
  applied : t.kind = .applied ↔ t.arguments ≠ []
  plain : t.arguments = [] → (t.kind = .plain ↔ ∃ s : Scalar, s.plainName = t.name)
  boxed : t.arguments = [] → (t.kind = .boxed ↔ ∃ s : Scalar, s.boxedName? = some t.name)
  enumeration : t.arguments = [] → (t.kind = .enumeration ↔
    t.name ∈ enums ∧ ∀ s : Scalar, s.plainName ≠ t.name ∧ s.boxedName? ≠ some t.name)
  /-- A primitive value is never absent. -/
  present : t.isPrimitive = true → t.nullable = false
  /-- There is a scalar for all types that are said to have one. -/
  scalar : t.kind = .plain ∨ t.kind = .boxed → t.scalar?.isSome = true

/-- Whether all nodes of a type are well formed and not too deep. Its arguments may be absent, at any
depth, but for those that hold primitive values. -/
def IsProper (enums : List String) (t : HostType) : Prop :=
  ∀ depth u, t.NodeAt depth u → depth ≤ 64 ∧ u.WellFormed enums ∧
    (0 < depth → u.nullable = !u.isPrimitive)

variable {enums : List String} {t u : HostType} {depth : Nat}

theorem NodeAt.eq_of_zero (h : t.NodeAt 0 u) : u = t := by
  cases h
  rfl

theorem NodeAt.eq_of_arguments_eq_nil (h : t.NodeAt depth u) (harguments : t.arguments = []) :
    depth = 0 ∧ u = t := by
  cases h with
  | root => exact ⟨rfl, rfl⟩
  | argument ha _ =>
    cases harguments
    cases ha

theorem NodeAt.of_withNullable {nullable : Bool} (h : (t.withNullable nullable).NodeAt (depth + 1) u) :
    t.NodeAt (depth + 1) u := by
  cases t
  cases h with
  | argument ha h => exact .argument ha h

section

variable {s : Scalar} {name : String}

theorem wellFormed_plain (enums : List String) (s : Scalar) :
    (HostType.plain s).WellFormed enums where
  applied := iff_of_false nofun (not_not_intro rfl)
  plain _ := iff_of_true rfl ⟨s, rfl⟩
  boxed _ := iff_of_false nofun fun ⟨s', hname⟩ => Scalar.boxedName?_ne_plainName s' s hname
  enumeration _ := iff_of_false nofun fun h => (h.2 s).1 rfl
  present := by cases s <;> decide
  scalar _ := by cases s <;> rfl

theorem wellFormed_boxed (enums : List String) (h : s.boxedName? = some name) :
    (mk .boxed name [] true).WellFormed enums where
  applied := iff_of_false nofun (not_not_intro rfl)
  plain _ := iff_of_false nofun fun ⟨s', hname⟩ =>
    Scalar.boxedName?_ne_plainName s s' (h.trans (congrArg some hname.symm))
  boxed _ := iff_of_true rfl ⟨s, h⟩
  enumeration _ := iff_of_false nofun fun hother => (hother.2 s).2 h
  present := nofun
  scalar _ := Scalar.isSome_ofBoxed?_iff.mpr ⟨s, h⟩

theorem wellFormed_other {kind : TypeKind} (hkind : kind = .enumeration ∨ kind = .object)
    (henum : kind = .enumeration ↔ name ∈ enums)
    (hother : ∀ s : Scalar, s.plainName ≠ name ∧ s.boxedName? ≠ some name) :
    (mk kind name [] true).WellFormed enums := by
  have hkinds : kind ≠ .plain ∧ kind ≠ .boxed ∧ kind ≠ .applied := by
    obtain rfl | rfl := hkind <;> decide
  obtain ⟨hplain, hboxed, happlied⟩ := hkinds
  constructor
  . exact iff_of_false happlied (not_not_intro rfl)
  . exact fun _ => iff_of_false hplain fun ⟨s, hname⟩ => (hother s).1 hname
  . exact fun _ => iff_of_false hboxed fun ⟨s, hname⟩ => (hother s).2 hname
  . exact fun _ => henum.trans (and_iff_left hother).symm
  . intro hprimitive
    exact absurd (beq_iff_eq.mp (Bool.and_eq_true_iff.mp hprimitive).1) hplain
  . rintro (hkind | hkind)
    . exact absurd hkind hplain
    . exact absurd hkind hboxed

theorem wellFormed_applied (enums : List String) (name : String) {arguments : List HostType}
    (h : arguments ≠ []) : (HostType.applied name arguments).WellFormed enums where
  applied := iff_of_true rfl h
  plain hnil := absurd hnil h
  boxed hnil := absurd hnil h
  enumeration hnil := absurd hnil h
  present := nofun
  scalar := nofun

end

theorem WellFormed.withNullable (h : t.WellFormed enums) (nullable : Bool) :
    (t.withNullable nullable).WellFormed enums where
  applied := h.applied
  plain := h.plain
  boxed := h.boxed
  enumeration := h.enumeration
  present hprimitive := by
    have hsame : t.isPrimitive = true := hprimitive
    rw [Record.nullable_withNullable, hsame]
    rfl
  scalar := h.scalar

theorem IsProper.withNullable (h : t.IsProper enums) (nullable : Bool) :
    (t.withNullable nullable).IsProper enums := by
  intro depth u hu
  cases depth with
  | zero =>
    obtain ⟨-, hformed, -⟩ := h 0 t (.root t)
    rw [hu.eq_of_zero]
    exact ⟨Nat.zero_le _, hformed.withNullable nullable, nofun⟩
  | succ depth => exact h _ _ hu.of_withNullable

theorem IsProper.present (h : t.IsProper enums) : t.isPrimitive = true → t.nullable = false :=
  (h 0 t (.root t)).2.1.present

end HostType

end Host

namespace Record

open HostType Signature

variable {enums : List String} {t : HostType}

theorem nullable_simpleType (enums : List String) (name : String) :
    (simpleType enums name).nullable = !(simpleType enums name).isPrimitive := by
  unfold simpleType
  split
  . next s _ => cases s <;> rfl
  . next s _ _ => cases s <;> rfl
  . split <;> rfl

theorem wellFormed_simpleType (enums : List String) (name : String) :
    (simpleType enums name).WellFormed enums := by
  unfold simpleType
  cases hplain : Scalar.ofPlain? name with
  | some s => exact wellFormed_plain enums s
  | none =>
    cases hboxed : Scalar.ofBoxed? name with
    | some s =>
      rw [Scalar.ofBoxed?_eq_some_iff] at hboxed
      dsimp only
      rw [HostType.boxed, hboxed]
      exact wellFormed_boxed enums hboxed
    | none =>
      have hother : ∀ s : Scalar, s.plainName ≠ name ∧ s.boxedName? ≠ some name := by
        intro s
        constructor
        . intro hname
          rw [Scalar.ofPlain?_eq_some_iff.mpr hname] at hplain
          cases hplain
        . intro hname
          rw [Scalar.ofBoxed?_eq_some_iff.mpr hname] at hboxed
          cases hboxed
      dsimp only
      split
      . next henum =>
        rw [List.contains_iff_mem] at henum
        exact wellFormed_other (.inl rfl) (iff_of_true rfl henum) hother
      . next henum =>
        rw [List.contains_iff_mem] at henum
        exact wellFormed_other (.inr rfl) (iff_of_false (by decide) henum) hother

mutual

/-- The nodes of a type that was read are those of its signature, and may be absent if they can be. -/
theorem nodes_typeOf (enums : List String) : ∀ (s : Signature) (depth : Nat) (u : HostType),
    (typeOf enums s).NodeAt depth u →
      depth ≤ s.levels ∧ u.WellFormed enums ∧ u.nullable = !u.isPrimitive
  | .mk name [], depth, u, h => by
    rw [typeOf] at h
    obtain ⟨rfl, rfl⟩ := h.eq_of_arguments_eq_nil (arguments_simpleType enums _)
    exact ⟨Nat.zero_le _, wellFormed_simpleType enums _, nullable_simpleType enums _⟩
  | .mk name (a :: as), depth, u, h => by
    rw [typeOf, HostType.applied] at h
    cases h with
    | root => exact ⟨Nat.zero_le _, wellFormed_applied enums _ (List.cons_ne_nil _ _), rfl⟩
    | argument hb h => exact nodes_typesOf enums (a :: as) _ hb _ u h

theorem nodes_typesOf (enums : List String) : ∀ (ss : List Signature), ∀ t ∈ typesOf enums ss,
    ∀ (depth : Nat) (u : HostType), t.NodeAt depth u →
      depth < levelsAmong ss ∧ u.WellFormed enums ∧ u.nullable = !u.isPrimitive
  | s :: ss, t, ht, depth, u, h => by
    rw [levelsAmong, lt_max_iff, Nat.lt_succ_iff]
    rw [typesOf] at ht
    obtain rfl | ht := List.mem_cons.mp ht
    . obtain ⟨hdepth, hnode⟩ := nodes_typeOf enums s depth u h
      exact ⟨.inl hdepth, hnode⟩
    . obtain ⟨hdepth, hnode⟩ := nodes_typesOf enums ss t ht depth u h
      exact ⟨.inr hdepth, hnode⟩

end

theorem isProper_of_readType {member source : String} (h : readType enums member source = .ok t) :
    t.IsProper enums := by
  obtain ⟨s, hs, -, rfl⟩ := readType_eq_ok_iff_parse.mp h
  intro depth u hu
  obtain ⟨hdepth, hformed, hnullable⟩ := nodes_typeOf enums s depth u hu
  exact ⟨hdepth.trans (parse_eq_ok_iff.mp hs).1, hformed, fun _ => hnullable⟩

theorem IsRead.isProper (h : IsRead enums t) : t.IsProper enums := by
  obtain ⟨source, plain, nullable, hplain, rfl⟩ := h
  have hread : readType enums "" source = .ok plain := readType_eq_ok_iff.mpr hplain
  exact (isProper_of_readType hread).withNullable nullable

/-- Whether the types of a class are proper. What a setter returns may also be nothing. -/
structure HasProperTypes (enums : List String) (c : HostClass) : Prop where
  types : ∀ t ∈ c.types, t.IsProper enums
  results : ∀ s ∈ c.setters, s.returns = .void ∨ s.returns.IsProper enums

section

variable {markers : Settings.Markers} {c c' : HostClass} {property : String}

theorem isProper_of_readDeclaredType {member source : String} {annotations : List String}
    (h : readDeclaredType markers enums member source annotations = .ok t) : t.IsProper enums := by
  obtain ⟨plain, hplain, rfl⟩ := readDeclaredType_eq_ok_iff.mp h
  exact IsRead.isProper ⟨source, plain, _, hplain, rfl⟩

theorem HasProperTypes.addsGetter (h : HasProperTypes enums c) {g : HostClass.Method}
    (hadds : AddsGetter markers enums c property g c') : HasProperTypes enums c' := by
  obtain ⟨member, source, annotations, hread⟩ := hadds.read
  rw [hadds.result]
  constructor
  . intro t ht
    obtain ht | rfl := mem_types_addGetter ht
    . exact h.types t ht
    . exact isProper_of_readDeclaredType hread
  . exact h.results

theorem HasProperTypes.addsSetter (h : HasProperTypes enums c) {type : HostType}
    {s : HostClass.Method} (hadds : AddsSetter markers enums c property type s c') :
    HasProperTypes enums c' := by
  obtain ⟨member, source, annotations, hread⟩ := hadds.read
  have hreturns : s.returns = .void ∨ s.returns.IsProper enums :=
    hadds.returns.imp_right fun ⟨_, _, hread⟩ => isProper_of_readType hread
  rw [hadds.result]
  constructor
  . intro t ht
    obtain ht | rfl := mem_types_addSetter hadds.takes ht
    . exact h.types t ht
    . exact isProper_of_readDeclaredType hread
  . exact List.forall_mem_append.mpr ⟨h.results, List.forall_mem_singleton.mpr hreturns⟩

theorem HasProperTypes.bindMethod (h : HasProperTypes enums c) {m : Method}
    (hstep : Record.bindMethod markers enums c m = .ok c') : HasProperTypes enums c' := by
  obtain rfl | ⟨property, g, hadds⟩ | ⟨property, type, s, hadds⟩ := bindMethod_cases hstep
  . exact h
  . exact h.addsGetter hadds
  . exact h.addsSetter hadds

theorem hasProperTypes_of_describe {r : Record} (h : describe markers enums r = .ok c) :
    HasProperTypes enums c := by
  obtain ⟨-, rfl⟩ | ⟨-, fields, constructors, hfields, hconstructors, hmethods⟩ := describe_cases h
  . exact ⟨nofun, nofun⟩
  . refine foldlM_invariant (fun _ _ _ hproper hstep => hproper.bindMethod hstep) ?_ hmethods
    obtain ⟨hfields, -⟩ := describeFields_bound .nil List.nodup_nil hfields
    refine ⟨HostClass.forall_mem_types.mpr ⟨?_, ?_, nofun, nofun⟩, nofun⟩
    . intro f hf
      obtain ⟨f', -, hbound⟩ := exists_of_mem_right hfields hf
      obtain ⟨plain, hplain, htype⟩ := hbound.described.type
      exact IsRead.isProper ⟨f'.type, plain, _, hplain, htype⟩
    . intro k hk p hp
      obtain ⟨k', -, hparameters⟩ :=
        exists_of_mem_right (describeConstructors_describedBy hconstructors) hk
      obtain ⟨p', -, hdescribed⟩ := exists_of_mem_right hparameters hp
      obtain ⟨plain, hplain, htype⟩ := hdescribed.type
      exact IsRead.isProper ⟨p'.type, plain, _, hplain, htype⟩

end

end Record

namespace Host.HostClass

variable {c : HostClass} {flag : Field → Bool} {serves : Method → Field → Prop}
variable {methods : List Method} {m : Method}

theorem Binds.field?_eq_some (h : Binds flag serves c.fields methods)
    (hnames : (c.fields.map Field.name).Nodup) (hm : m ∈ methods) {f : Field}
    (hf : m.field.bind c.field? = some f) : f ∈ c.fields ∧ serves m f := by
  obtain ⟨name, hname, hfound⟩ := Option.bind_eq_some_iff.mp hf
  obtain ⟨f', hf', hsame, hserves⟩ := h.served m hm name hname
  have hmem := List.mem_of_find?_eq_some hfound
  have hfname : f.name = name := beq_iff_eq.mp (List.find?_some hfound :)
  obtain rfl := List.inj_on_of_nodup_map hnames hmem hf' (hfname.trans hsame.symm)
  exact ⟨hmem, hserves⟩

variable (hlinked : c.Linked) (hpresent : ∀ t ∈ c.types, t.isPrimitive = true → t.nullable = false)

include hpresent in
theorem fieldNullable_of_isPrimitive {f : Field} (hf : f ∈ c.fields)
    (hprimitive : f.type.isPrimitive = true) : c.fieldNullable f = false := by
  obtain ⟨hfields, -⟩ := forall_mem_types.mp hpresent
  rw [fieldNullable, hfields f hf hprimitive, Bool.false_and]

include hlinked hpresent

theorem getterNullable_of_isPrimitive (hm : m ∈ c.getters)
    (hprimitive : m.returns.isPrimitive = true) : c.getterNullable m = false := by
  obtain ⟨-, -, hgetters, -⟩ := forall_mem_types.mp hpresent
  unfold getterNullable
  split
  . next f hf =>
    obtain ⟨hmem, hreads⟩ := hlinked.getters.field?_eq_some hlinked.names hm hf
    apply fieldNullable_of_isPrimitive hpresent hmem
    rw [Record.isPrimitive_of_sameShape hreads.2, hprimitive]
  . exact hgetters m hm hprimitive

theorem setterNullable_of_isPrimitive {t : HostType} (hm : m ∈ c.setters) (ht : m.parameters = [t])
    (hprimitive : t.isPrimitive = true) : c.setterNullable m = false := by
  obtain ⟨-, -, -, hsetters⟩ := forall_mem_types.mp hpresent
  unfold setterNullable
  split
  . next f hf =>
    obtain ⟨hmem, -, t', ht', hshape⟩ := hlinked.setters.field?_eq_some hlinked.names hm hf
    obtain rfl := List.singleton_inj.mp (ht.symm.trans ht')
    apply fieldNullable_of_isPrimitive hpresent hmem
    rw [Record.isPrimitive_of_sameShape hshape, hprimitive]
  . have hmem : t ∈ m.parameters := by
      rw [ht]
      exact List.mem_singleton_self t
    rw [ht, List.any_cons, hsetters m hm t hmem hprimitive, List.any_nil, Bool.or_false]

end Host.HostClass

namespace Scala

theorem scalar_of_typeFor {catalog : Catalog} {package : String} {t : HostType} {type : ScalaType}
    (hprimitive : t.isPrimitive = true) (h : typeFor catalog package t = .ok type) :
    ∃ s, type = .scalar s false := by
  obtain ⟨kind, name, arguments, nullable⟩ := t
  obtain rfl : kind = .plain := beq_iff_eq.mp (Bool.and_eq_true_iff.mp hprimitive).1
  unfold typeFor at h
  cases hs : Scalar.ofPlain? name with
  | none =>
    rw [hs] at h
    cases h
  | some s =>
    rw [hs] at h
    cases h
    exact ⟨s, rfl⟩

namespace Outline

variable {context : Context} {type : MemberType}

theorem MemberType.Stands.target_of_isPrimitive {t : HostType} (h : type.Stands context t false)
    (hprimitive : t.isPrimitive = true) : ∃ s, type.target = .scalar s false := by
  obtain ⟨s, hs⟩ := scalar_of_typeFor hprimitive h.mapped
  exact ⟨s, h.target.trans hs⟩

/-- A member that holds a primitive value has the type of a scalar. -/
theorem MemberType.IsFor.target_of_isPrimitive (h : type.IsFor context)
    (hlinked : context.host.Linked)
    (hpresent : ∀ t ∈ context.host.types, t.isPrimitive = true → t.nullable = false)
    (hprimitive : type.host.isPrimitive = true) : ∃ s, type.target = .scalar s false := by
  cases h with
  | @parameter k p hk hp hstands =>
    obtain ⟨-, hparameters, -⟩ := HostClass.forall_mem_types.mp hpresent
    rw [hstands.host] at hprimitive
    have hnullable : HostClass.parameterNullable p = false := hparameters k hk p hp hprimitive
    rw [hnullable] at hstands
    exact hstands.target_of_isPrimitive hprimitive
  | getter hm hstands =>
    rw [hstands.host] at hprimitive
    rw [HostClass.getterNullable_of_isPrimitive hlinked hpresent hm hprimitive] at hstands
    exact hstands.target_of_isPrimitive hprimitive
  | setter hm ht hstands =>
    rw [hstands.host] at hprimitive
    rw [HostClass.setterNullable_of_isPrimitive hlinked hpresent hm ht hprimitive] at hstands
    exact hstands.target_of_isPrimitive hprimitive

end Outline

end Scala

namespace Record

open Scala

/-- What is read as a type is well formed at every node, whether or not the type may be absent, and has no
more than 64 levels of arguments. So are all types of a class that is described. None of the members of its
wrapper that hold primitive values is an optional one. -/
theorem types_proper (enums : List String) :
    (∀ member source t, readType enums member source = .ok t →
      t.IsProper enums ∧ ∀ nullable, (t.withNullable nullable).IsProper enums) ∧
    ∀ markers r c, describe markers enums r = .ok c →
      (∀ t ∈ c.types, t.IsProper enums) ∧
      (∀ s ∈ c.setters, s.returns = .void ∨ s.returns.IsProper enums) ∧
      ∀ catalog o, Outline.ofClass catalog c = .ok o →
        ∀ type ∈ o.memberTypes, type.host.isPrimitive = true →
          ∃ s, type.target = .scalar s false := by
  constructor
  . intro member source t hread
    have hproper := isProper_of_readType hread
    exact ⟨hproper, hproper.withNullable⟩
  . intro markers r c hdescribe
    obtain ⟨htypes, hresults⟩ := hasProperTypes_of_describe hdescribe
    refine ⟨htypes, hresults, ?_⟩
    intro catalog o houtline type htype hprimitive
    exact (Outline.isFor_of_mem_memberTypes houtline htype).target_of_isPrimitive
      (linked_of_describe hdescribe) (fun t ht => (htypes t ht).present) hprimitive

def tallyText : String :=
  "java.util.Map<p.Mode, ? extends java.util.Set<Integer>[]>"

/-- A text with an enumeration and a boxed value in it, and a class where annotations say that primitive
values may be absent. -/
theorem types_proper_profile :
    (∃ t, readType ["p.Mode", "java.lang.Integer"] "p.Host.getTally()" tallyText = .ok t ∧
      t.NodeAt 1 (.enumeration "p.Mode") ∧ t.NodeAt 2 (.boxed .int) ∧
      t.IsProper ["p.Mode", "java.lang.Integer"] ∧
      (t.withNullable false).IsProper ["p.Mode", "java.lang.Integer"]) ∧
    ∃ c o, describe .standard [] profileRecord = .ok c ∧
      (∀ t ∈ c.types, t.IsProper []) ∧ (∀ s ∈ c.setters, s.returns = .void ∨ s.returns.IsProper []) ∧
      Outline.ofClass ⟨[("p.Profile", ⟨"p.Profile", "p", "Profile", false⟩)], []⟩ c = .ok o ∧
      (o.memberTypes.filter (·.host.isPrimitive)).length = 2 ∧
      ∀ type ∈ o.memberTypes, type.host.isPrimitive = true → ∃ s, type.target = .scalar s false := by
  constructor
  . have hread : readType ["p.Mode", "java.lang.Integer"] "p.Host.getTally()" tallyText =
        .ok (.applied "java.util.Map" [.enumeration "p.Mode",
          .applied "java.util.Set[]" [.boxed .int]]) := rfl
    obtain ⟨hproper, hnullable⟩ := (types_proper ["p.Mode", "java.lang.Integer"]).1 _ _ _ hread
    refine ⟨_, hread, ?_, ?_, hproper, hnullable false⟩
    . exact .argument (List.mem_cons_self ..) (.root _)
    . exact .argument (List.mem_cons_of_mem _ (List.mem_cons_self ..))
        (.argument (List.mem_cons_self ..) (.root _))
  . have hrun : (outlineOf .standard []
        ⟨[("p.Profile", ⟨"p.Profile", "p", "Profile", false⟩)], []⟩ profileRecord).map
          (fun o => (o.memberTypes.filter (·.host.isPrimitive)).length) = .ok 2 := by
      decide +kernel
    obtain ⟨c, o, hdescribe, houtline, hlength⟩ := exists_outline_of_map hrun
    obtain ⟨htypes, hresults, hmembers⟩ := (types_proper []).2 _ _ _ hdescribe
    exact ⟨c, o, hdescribe, htypes, hresults, houtline, hlength, hmembers _ o houtline⟩

end Record

end Facade
