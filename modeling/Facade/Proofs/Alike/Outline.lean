import Facade.Proofs.Alike.Description
import Facade.Proofs.Binding.Outlined
import Facade.Scala.Wrapper

/-!
This module contains the proof that a class gets the same file, or the same refusal, whichever
classes are known to be enumerations: its outlines are the same but for the host types, which no
source is written from.
-/

namespace Facade

open Host Outcome

namespace Host.HostClass

variable {enums enums' : List String} {c c' : HostClass}

theorem Alike.getterFor? (h : c.Alike enums enums' c') (field : String) :
    Option.Rel Method.Alike (c.getterFor? field) (c'.getterFor? field) :=
  rel_find? h.getters fun m m' hm => by rw [hm.field]

theorem Alike.setterFor? (h : c.Alike enums enums' c') (field : String) :
    Option.Rel Method.Alike (c.setterFor? field) (c'.setterFor? field) :=
  rel_find? h.setters fun m m' hm => by rw [hm.field]

theorem Alike.field? (h : c.Alike enums enums' c') (name : String) :
    Option.Rel (Field.Alike enums enums') (c.field? name) (c'.field? name) :=
  rel_find? h.fields fun f f' hf => by rw [hf.name]

theorem Alike.fieldNullable (h : c.Alike enums enums' c') {f f' : Field}
    (hf : f.Alike enums enums' f') : c.fieldNullable f = c'.fieldNullable f' := by
  have hgetter := h.getterFor? f.name
  unfold HostClass.fieldNullable
  rw [hf.type.alike.nullable, ← hf.name]
  generalize c.getterFor? f.name = getter, c'.getterFor? f.name = getter' at hgetter ⊢
  cases hgetter with
  | none => rfl
  | some hm => simp only [hm.returns.nullable]

theorem Alike.follows (h : c.Alike enums enums' c') (field : Option String) (own : Bool) :
    (match field.bind c.field? with
      | some f => c.fieldNullable f
      | none => own) =
    match field.bind c'.field? with
      | some f => c'.fieldNullable f
      | none => own := by
  cases field with
  | none => rfl
  | some name =>
    have hfield := h.field? name
    rw [Option.bind_some, Option.bind_some]
    generalize c.field? name = f, c'.field? name = f' at hfield ⊢
    cases hfield with
    | none => rfl
    | some hf => exact h.fieldNullable hf

theorem Alike.getterNullable (h : c.Alike enums enums' c') {m m' : Method} (hm : m.Alike m') :
    c.getterNullable m = c'.getterNullable m' := by
  unfold HostClass.getterNullable
  rw [← hm.field, ← hm.returns.nullable]
  exact h.follows m.field m.returns.nullable

theorem any_nullable_of_alike {ts ts' : List HostType} (h : List.Forall₂ HostType.Alike ts ts') :
    ts.any HostType.nullable = ts'.any HostType.nullable := by
  induction h with
  | nil => rfl
  | cons ht _ ih => rw [List.any_cons, List.any_cons, ht.nullable, ih]

theorem Alike.setterNullable (h : c.Alike enums enums' c') {m m' : Method} (hm : m.Alike m') :
    c.setterNullable m = c'.setterNullable m' := by
  unfold HostClass.setterNullable
  rw [← hm.field, ← any_nullable_of_alike hm.parameters]
  exact h.follows m.field (m.parameters.any HostType.nullable)

end Host.HostClass

namespace Scala

namespace Outline

structure MemberType.Alike (t t' : MemberType) : Prop where
  mapped : t.mapped = t'.mapped
  target : t.target = t'.target
  nullable : t.nullable = t'.nullable

structure Parameter.Alike (p p' : Parameter) : Prop where
  hostName : p.hostName = p'.hostName
  name : p.name = p'.name
  type : p.type.Alike p'.type

def Constructor.Alike (k k' : Constructor) : Prop :=
  List.Forall₂ Parameter.Alike k.parameters k'.parameters

structure Getter.Alike (g g' : Getter) : Prop where
  hostMethod : g.hostMethod = g'.hostMethod
  name : g.name = g'.name
  type : g.type.Alike g'.type
  throws : g.throws = g'.throws
  field : g.field = g'.field

structure Setter.Alike (s s' : Setter) : Prop where
  hostMethod : s.hostMethod = s'.hostMethod
  name : s.name = s'.name
  type : s.type.Alike s'.type
  throws : s.throws = s'.throws
  field : s.field = s'.field

inductive Body.Alike : Body → Body → Prop where
  | enumeration (constants : List Constant) : Alike (.enumeration constants) (.enumeration constants)
  | members {constructors constructors' : List Constructor} {getters getters' : List Getter}
      {setters setters' : List Setter}
      (hconstructors : List.Forall₂ Constructor.Alike constructors constructors')
      (hgetters : List.Forall₂ Getter.Alike getters getters')
      (hsetters : List.Forall₂ Setter.Alike setters setters') :
      Alike (.members constructors getters setters) (.members constructors' getters' setters')

section

variable {catalog : Catalog} {package : String} {enums enums' : List String} {c c' : HostClass}

def Getter.AlikeWith (x x' : Getter × NamePool) : Prop :=
  x.1.Alike x'.1 ∧ x.2 = x'.2

def Getter.AllAlikeWith (x x' : List Getter × NamePool) : Prop :=
  List.Forall₂ Getter.Alike x.1 x'.1 ∧ x.2 = x'.2

theorem memberType_agree (member : String) {t t' : HostType} (h : t.Alike t') (nullable : Bool) :
    Agree MemberType.Alike (memberType ⟨catalog, c, package⟩ member t nullable)
      (memberType ⟨catalog, c', package⟩ member t' nullable) := by
  unfold memberType
  rw [typeForMember_of_alike h]
  cases typeForMember catalog package member t' with
  | ok mapped => exact .ok ⟨rfl, rfl, rfl⟩
  | error refusal => exact .error _

theorem parameters_agree (hname : c.name = c'.name) (index : Nat) (pool : NamePool)
    {ps ps' : List HostClass.Parameter} (h : List.Forall₂ HostClass.Parameter.Alike ps ps') :
    Agree (List.Forall₂ Parameter.Alike) (parameters ⟨catalog, c, package⟩ index pool ps)
      (parameters ⟨catalog, c', package⟩ index pool ps') := by
  induction h generalizing pool with
  | nil => exact .ok .nil
  | @cons p p' ps ps' hp _ ih =>
    unfold parameters HostClass.parameterNullable
    dsimp only
    rw [hname, hp.name, hp.type.nullable]
    apply Agree.bind_same
    rintro ⟨name, pool⟩
    apply (memberType_agree _ hp.type _).bind
    intro type type' htype
    apply (ih pool).bind
    intro rest rest' hrest
    exact .ok (.cons ⟨rfl, rfl, htype⟩ hrest)

theorem constructors_agree (hname : c.name = c'.name) (index : Nat)
    {ks ks' : List HostClass.Constructor} (h : List.Forall₂ HostClass.Constructor.Alike ks ks') :
    Agree (List.Forall₂ Constructor.Alike) (constructors ⟨catalog, c, package⟩ index ks)
      (constructors ⟨catalog, c', package⟩ index ks') := by
  induction h generalizing index with
  | nil => exact .ok .nil
  | cons hk _ ih =>
    unfold constructors
    apply (parameters_agree hname index .empty hk).bind
    intro first first' hfirst
    apply (ih (index + 1)).bind
    intro rest rest' hrest
    exact .ok (.cons hfirst hrest)

theorem Constructor.Alike.erased {k k' : Constructor} (h : k.Alike k') : k.erased = k'.erased :=
  (map_eq_of_forall₂ h fun p p' hp => by rw [hp.type.target]).symm

theorem checkErased_eq_of_alike (className : String) (seen : List (List String × Option Nat))
    (index : Nat) {ks ks' : List Constructor} (h : List.Forall₂ Constructor.Alike ks ks') :
    checkErased className seen index ks = checkErased className seen index ks' := by
  induction h generalizing seen index with
  | nil => rfl
  | cons hk _ ih =>
    unfold checkErased
    rw [hk.erased]
    split
    . rfl
    . exact ih _ _

theorem getter_agree (h : c.Alike enums enums' c') (pool : NamePool) (property : String)
    {m m' : HostClass.Method} (hm : m.Alike m') :
    Agree Getter.AlikeWith (getter ⟨catalog, c, package⟩ pool property m)
      (getter ⟨catalog, c', package⟩ pool property m') := by
  unfold getter
  dsimp only
  rw [h.name, hm.name, h.getterNullable hm]
  apply Agree.bind_same
  rintro ⟨name, pool⟩
  apply (memberType_agree _ hm.returns _).bind
  intro type type' htype
  exact .ok ⟨⟨rfl, rfl, htype, hm.throws, hm.field⟩, rfl⟩

theorem fieldGetters_agree (h : c.Alike enums enums' c') (pool : NamePool)
    {fs fs' : List HostClass.Field} (hfs : List.Forall₂ (HostClass.Field.Alike enums enums') fs fs') :
    Agree Getter.AllAlikeWith (fieldGetters ⟨catalog, c, package⟩ pool fs)
      (fieldGetters ⟨catalog, c', package⟩ pool fs') := by
  induction hfs generalizing pool with
  | nil => exact .ok ⟨.nil, rfl⟩
  | @cons f f' fs fs' hf _ ih =>
    have hgetter := h.getterFor? f.name
    unfold fieldGetters breach
    dsimp only
    rw [← hf.name, h.name]
    generalize c.getterFor? f.name = getter?, c'.getterFor? f.name = getter?' at hgetter ⊢
    cases hgetter with
    | none => exact .error _
    | some hm =>
      apply (getter_agree h pool f.name hm).bind
      rintro ⟨first, pool⟩ ⟨first', _⟩ ⟨hfirst, rfl⟩
      apply (ih pool).bind
      rintro ⟨rest, pool⟩ ⟨rest', _⟩ ⟨hrest, rfl⟩
      exact .ok ⟨.cons hfirst hrest, rfl⟩

theorem propertyOf_eq_of_alike {m m' : HostClass.Method} (h : m.Alike m') :
    propertyOf m = propertyOf m' := by
  rw [propertyOf, propertyOf, h.name, h.returns.isBoolean]

theorem computedGetters_agree (h : c.Alike enums enums' c') (pool : NamePool)
    {ms ms' : List HostClass.Method} (hms : List.Forall₂ HostClass.Method.Alike ms ms') :
    Agree Getter.AllAlikeWith (computedGetters ⟨catalog, c, package⟩ pool ms)
      (computedGetters ⟨catalog, c', package⟩ pool ms') := by
  induction hms generalizing pool with
  | nil => exact .ok ⟨.nil, rfl⟩
  | cons hm _ ih =>
    unfold computedGetters
    rw [propertyOf_eq_of_alike hm]
    apply (getter_agree h pool _ hm).bind
    rintro ⟨first, pool⟩ ⟨first', _⟩ ⟨hfirst, rfl⟩
    apply (ih pool).bind
    rintro ⟨rest, pool⟩ ⟨rest', _⟩ ⟨hrest, rfl⟩
    exact .ok ⟨.cons hfirst hrest, rfl⟩

theorem setter_agree (h : c.Alike enums enums' c') (pool : NamePool) (field : String)
    {m m' : HostClass.Method} (hm : m.Alike m') :
    Agree (fun x x' => x.1.Alike x'.1 ∧ x.2 = x'.2) (setter ⟨catalog, c, package⟩ pool field m)
      (setter ⟨catalog, c', package⟩ pool field m') := by
  have hparameters := hm.parameters
  have hnullable := h.setterNullable hm
  unfold setter breach
  rw [hm.name]
  dsimp only
  rw [h.name, hnullable]
  generalize m.parameters = ts, m'.parameters = ts' at hparameters ⊢
  cases hparameters with
  | nil => exact .error _
  | cons ht hts =>
    cases hts with
    | cons _ _ => exact .error _
    | nil =>
      apply Agree.bind_same
      rintro ⟨name, pool⟩
      apply (memberType_agree _ ht _).bind
      intro type type' htype
      exact .ok ⟨⟨rfl, rfl, htype, hm.throws, rfl⟩, rfl⟩

theorem setters_agree (h : c.Alike enums enums' c') (pool : NamePool)
    {fs fs' : List HostClass.Field} (hfs : List.Forall₂ (HostClass.Field.Alike enums enums') fs fs') :
    Agree (List.Forall₂ Setter.Alike) (setters ⟨catalog, c, package⟩ pool fs)
      (setters ⟨catalog, c', package⟩ pool fs') := by
  induction hfs generalizing pool with
  | nil => exact .ok .nil
  | @cons f f' fs fs' hf _ ih =>
    have hsetter := h.setterFor? f.name
    unfold setters breach
    dsimp only
    rw [← hf.name, h.name]
    generalize c.setterFor? f.name = setter?, c'.setterFor? f.name = setter?' at hsetter ⊢
    cases hsetter with
    | none => exact .error _
    | some hm =>
      apply (setter_agree h pool f.name hm).bind
      rintro ⟨first, pool⟩ ⟨first', _⟩ ⟨hfirst, rfl⟩
      apply (ih pool).bind
      intro rest rest' hrest
      exact .ok (.cons hfirst hrest)

theorem members_agree (h : c.Alike enums enums' c') :
    Agree Body.Alike (members ⟨catalog, c, package⟩) (members ⟨catalog, c', package⟩) := by
  unfold members
  dsimp only
  rw [h.name]
  apply (constructors_agree h.name 0 h.constructors).bind
  intro constructors constructors' hconstructors
  rw [checkErased_eq_of_alike _ _ _ hconstructors]
  apply Agree.bind_same
  intro _
  apply (fieldGetters_agree h _ (forall₂_filter h.fields fun f f' hf => hf.hasGetter)).bind
  rintro ⟨bound, pool⟩ ⟨bound', _⟩ ⟨hbound, rfl⟩
  have hcomputed : List.Forall₂ HostClass.Method.Alike c.computed c'.computed :=
    forall₂_filter h.getters fun m m' hm => by rw [hm.field]
  apply (computedGetters_agree h pool hcomputed).bind
  rintro ⟨computed, pool⟩ ⟨computed', _⟩ ⟨hcomputed, rfl⟩
  apply (setters_agree h pool (forall₂_filter h.fields fun f f' hf => hf.hasSetter)).bind
  intro setters setters' hsetters
  exact .ok (.members hconstructors (List.rel_append hbound hcomputed) hsetters)

theorem bodyOf_agree (h : c.Alike enums enums' c') :
    Agree Body.Alike (bodyOf ⟨catalog, c, package⟩) (bodyOf ⟨catalog, c', package⟩) := by
  unfold bodyOf
  dsimp only
  rw [h.isEnum, h.constants]
  split
  . apply Agree.bind_same
    intro constants
    exact .ok (.enumeration constants)
  . exact members_agree h

/-- Whether sources show two wrappers in the same way. -/
structure Alike (o o' : Outline) : Prop where
  className : o.className = o'.className
  package : o.package = o'.package
  name : o.name = o'.name
  fileStem : o.fileStem = o'.fileStem
  body : o.body.Alike o'.body

theorem ofClass_agree (h : c.Alike enums enums' c') :
    Agree Alike (ofClass catalog c) (ofClass catalog c') := by
  unfold ofClass
  rw [h.name]
  split
  . exact .error _
  . dsimp only
    split
    . exact .error _
    . apply (bodyOf_agree h).bind
      intro body body' hbody
      exact .ok ⟨rfl, rfl, rfl, rfl, hbody⟩

end

end Outline

namespace ClassWrapper

open Outline

variable {constructors constructors' : List Constructor} {getters getters' : List Getter}
  {setters setters' : List Setter}

theorem imports_eq_of_alike (hconstructors : List.Forall₂ Constructor.Alike constructors constructors')
    (hgetters : List.Forall₂ Getter.Alike getters getters')
    (hsetters : List.Forall₂ Setter.Alike setters setters') :
    imports constructors getters setters = imports constructors' getters' setters' := by
  have htargets : constructors.map (·.parameters.map (·.type.target)) =
      constructors'.map (·.parameters.map (·.type.target)) := by
    refine (map_eq_of_forall₂ hconstructors ?_).symm
    exact fun k k' hk => map_eq_of_forall₂ hk fun p p' hp => hp.type.target.symm
  have hread : getters.map (·.type.target) = getters'.map (·.type.target) :=
    (map_eq_of_forall₂ hgetters fun g g' hg => hg.type.target.symm).symm
  have hassigned : setters.map (·.type.target) = setters'.map (·.type.target) :=
    (map_eq_of_forall₂ hsetters fun s s' hs => hs.type.target.symm).symm
  unfold imports
  rw [List.flatMap_def, List.flatMap_def, htargets, hread, hassigned]

theorem constructorDef_eq_of_alike (host : String) {k k' : Constructor} (h : k.Alike k') :
    constructorDef host k = constructorDef host k' := by
  have hparams : k.parameters.map (fun p => ({ name := p.name, type := p.type.target.render } : Param)) =
      k'.parameters.map fun p => { name := p.name, type := p.type.target.render } :=
    (map_eq_of_forall₂ h fun p p' hp => by rw [hp.name, hp.type.target]).symm
  have harguments : k.parameters.map (fun p => (toHost p.type.target (.code p.name)).render) =
      k'.parameters.map fun p => (toHost p.type.target (.code p.name)).render :=
    (map_eq_of_forall₂ h fun p p' hp => by rw [hp.name, hp.type.target]).symm
  unfold constructorDef
  rw [hparams, harguments]

theorem getterDef_eq_of_alike {g g' : Getter} (h : g.Alike g') : getterDef g = getterDef g' := by
  rw [getterDef, getterDef, h.hostMethod, h.name, h.type.target, h.throws, h.field]

theorem setterDef_eq_of_alike {s s' : Setter} (h : s.Alike s') : setterDef s = setterDef s' := by
  rw [setterDef, setterDef, h.hostMethod, h.name, h.type.target, h.throws]

theorem compared_eq_of_alike (h : List.Forall₂ Getter.Alike getters getters') :
    compared getters = compared getters' :=
  (map_eq_of_forall₂ (forall₂_filter h fun g g' hg => by rw [hg.throws])
    fun g g' hg => hg.name.symm).symm

theorem sourceFile_eq_of_alike {o o' : Outline} (hname : o.name = o'.name)
    (hpackage : o.package = o'.package) (hclass : o.className = o'.className)
    (hconstructors : List.Forall₂ Constructor.Alike constructors constructors')
    (hgetters : List.Forall₂ Getter.Alike getters getters')
    (hsetters : List.Forall₂ Setter.Alike setters setters') :
    sourceFile o constructors getters setters = sourceFile o' constructors' getters' setters' := by
  have hmembers : ∀ host,
      constructors.map (fun k => (constructorDef host k).fragments) =
        constructors'.map fun k => (constructorDef host k).fragments :=
    fun host => (map_eq_of_forall₂ hconstructors fun k k' hk => by
      rw [constructorDef_eq_of_alike host hk]).symm
  have hread : getters.map (fun g => (getterDef g).fragments) =
      getters'.map fun g => (getterDef g).fragments :=
    (map_eq_of_forall₂ hgetters fun g g' hg => by rw [getterDef_eq_of_alike hg]).symm
  have hassigned : setters.map (fun s => (setterDef s).fragments) =
      setters'.map fun s => (setterDef s).fragments :=
    (map_eq_of_forall₂ hsetters fun s s' hs => by rw [setterDef_eq_of_alike hs]).symm
  unfold sourceFile
  simp only [hname, hpackage, hclass, imports_eq_of_alike hconstructors hgetters hsetters,
    compared_eq_of_alike hgetters, hmembers, hread, hassigned]

end ClassWrapper

theorem Outline.Alike.file {o o' : Outline} (h : o.Alike o') : o.file = o'.file := by
  have hsource : o.sourceFile = o'.sourceFile := by
    have hbody := h.body
    unfold sourceFile
    generalize o.body = body, o'.body = body' at hbody ⊢
    cases hbody with
    | enumeration constants =>
      dsimp only
      unfold EnumWrapper.sourceFile
      rw [h.className, h.package, h.name]
    | members hconstructors hgetters hsetters =>
      exact ClassWrapper.sourceFile_eq_of_alike h.name h.package h.className hconstructors hgetters
        hsetters
  unfold Outline.file
  rw [hsource, path, path, h.package, h.fileStem]

end Scala

namespace Host.HostClass

/-- Whether two classes stand for each other in every batch. -/
structure Interchangeable (c c' : HostClass) : Prop where
  name : c.name = c'.name
  isEnum : c.isEnum = c'.isEnum
  references : ∀ name, c.references name = c'.references name
  generateFile : ∀ catalog, Scala.generateFile catalog c = Scala.generateFile catalog c'

theorem any_mentions_of_alike {ts ts' : List HostType} (h : List.Forall₂ HostType.Alike ts ts')
    (name : String) : ts.any (·.mentions name) = ts'.any (·.mentions name) := by
  induction h with
  | nil => rfl
  | cons ht _ ih => rw [List.any_cons, List.any_cons, ht.mentions, ih]

variable {enums enums' : List String} {c c' : HostClass}

theorem Alike.types (h : c.Alike enums enums' c') :
    List.Forall₂ HostType.Alike c.types c'.types := by
  unfold HostClass.types
  refine List.rel_append (List.rel_append (List.rel_append ?_ ?_) ?_) ?_
  . exact List.rel_map (fun f f' hf => hf.type.alike) h.fields
  . exact List.rel_flatMap h.constructors fun k k' hk => List.rel_map (fun p p' hp => hp.type) hk
  . exact List.rel_map (fun m m' hm => hm.returns) h.getters
  . exact List.rel_flatMap h.setters fun m m' hm => hm.parameters

/-- Which classes are known to be enumerations makes no difference to a class in a batch. -/
theorem Alike.interchangeable (h : c.Alike enums enums' c') : c.Interchangeable c' where
  name := h.name
  isEnum := h.isEnum
  references := any_mentions_of_alike h.types
  generateFile catalog := by
    have houtline : Agree Scala.Outline.Alike (Scala.Outline.ofClass catalog c)
        (Scala.Outline.ofClass catalog c') := Scala.Outline.ofClass_agree h
    exact (houtline.bind fun o o' ho => .ok ho.file).eq

end Host.HostClass

end Facade
