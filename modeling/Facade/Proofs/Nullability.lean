import Facade.Proofs.Binding.Outlined

/-!
This module contains the proof about which members of a wrapper are optional: the annotations of
fields, of the methods that read them and of parameters decide, and nothing else does.
-/

namespace Facade

open Host Matching Outcome Scala Settings

namespace Scala.ScalaType

/-- Whether the type is optional or holds an optional type. -/
def holdsOption : ScalaType → Bool
  | option _ => true
  | list element => element.holdsOption
  | set element => element.holdsOption
  | map key value => key.holdsOption || value.holdsOption
  | _ => false

theorem holdsOption_of_typeFor {catalog : Catalog} {package : String} {t : HostType}
    {type : ScalaType} (h : typeFor catalog package t = .ok type) : type.holdsOption = false := by
  have hhereditary : Hereditary (fun type => type.holdsOption = false) catalog package :=
    { scalar := fun _ _ => rfl
      named := by
        intro name type htype
        unfold namedType? at htype
        split at htype
        . next entry _ =>
          cases htype
          unfold wrapperType
          split <;> rfl
        . obtain ⟨expression, -, rfl⟩ := Option.map_eq_some_iff.mp htype
          rfl
      missing := rfl
      list := fun _ helement => helement
      set := fun _ helement => helement
      map := fun _ _ hkey hvalue => by rw [holdsOption, hkey, hvalue, Bool.or_false] }
  exact hhereditary.typeFor t type h

end Scala.ScalaType

namespace Record

def namesPrimitive (enums : List String) (source : String) : Bool :=
  (typeNamed? enums source).any HostType.isPrimitive

def Parameter.mayBeAbsent (markers : Markers) (enums : List String) (p : Parameter) : Bool :=
  !namesPrimitive enums p.type && markers.saysNullable p.annotations

def Method.mayReturnNothing (markers : Markers) (enums : List String) (m : Method) : Bool :=
  !namesPrimitive enums m.returns && !markers.saysPresent m.annotations

/-- Whether a field may hold no value: neither the field nor the method that reads it says otherwise. -/
def fieldMayBeEmpty (markers : Markers) (enums : List String) (r : Record) (f : Field) : Bool :=
  !namesPrimitive enums f.type && !markers.saysPresent f.annotations &&
    !((r.readers enums).find? (f.isReadBy enums)).any (markers.saysPresent ·.annotations)

/-- Whether a member has the type that a text names, as an optional one just if it is said to be. -/
structure Place.ShowsAs (place : Place) (source : String) (optional : Bool)
    (type : Outline.MemberType) : Prop where
  types : place.Types source type
  option : type.target = .option type.mapped ↔ optional = true
  plain : optional = false → type.target = type.mapped
  noOption : type.mapped.holdsOption = false

variable {markers : Markers} {enums : List String}

theorem isPrimitive_of_sameShape {t u : HostType} (h : t.sameShape u = true) :
    t.isPrimitive = u.isPrimitive := by
  obtain ⟨kind, name, arguments, nullable⟩ := t
  obtain ⟨kind', name', arguments', nullable'⟩ := u
  simp only [HostType.sameShape, Bool.and_eq_true, beq_iff_eq] at h
  obtain ⟨⟨rfl, rfl⟩, -⟩ := h
  rfl

theorem nullable_withNullable (t : HostType) (nullable : Bool) :
    (t.withNullable nullable).nullable = (!t.isPrimitive && nullable) :=
  Bool.and_comm _ _

theorem namesPrimitive_eq {source : String} {plain : HostType}
    (h : typeNamed? enums source = some plain) : namesPrimitive enums source = plain.isPrimitive := by
  rw [namesPrimitive, h, Option.any_some]

/-- A method returns a primitive value if and only if the field that it reads holds one. -/
theorem namesPrimitive_of_isReadBy {f : Field} {m : Method} (h : f.isReadBy enums m = true) :
    namesPrimitive enums m.returns = namesPrimitive enums f.type := by
  obtain ⟨⟨property, type⟩, hread, hproperty⟩ := (Option.any_eq_true _ _).mp h
  rw [Field.hasProperty, Bool.and_eq_true] at hproperty
  obtain ⟨plain, hplain, hshape⟩ := (Option.any_eq_true _ _).mp hproperty.2
  rw [namesPrimitive_eq (Method.typeNamed?_of_read? hread), namesPrimitive_eq hplain,
    isPrimitive_of_sameShape hshape]

theorem Method.GetterDescribedBy.nullable_returns {className : String} {m : Method}
    {d : HostClass.Method} (h : m.GetterDescribedBy markers enums className d) :
    d.returns.nullable = m.mayReturnNothing markers enums := by
  obtain ⟨plain, hplain, hreturns⟩ := h.returns
  rw [hreturns, nullable_withNullable, Method.mayReturnNothing, namesPrimitive_eq hplain]

theorem Parameter.DescribedBy.parameterNullable_eq {p : Parameter} {d : HostClass.Parameter}
    (h : p.DescribedBy markers enums d) :
    HostClass.parameterNullable d = p.mayBeAbsent markers enums := by
  obtain ⟨plain, hplain, htype⟩ := h.type
  rw [HostClass.parameterNullable, htype, nullable_withNullable, Parameter.mayBeAbsent,
    namesPrimitive_eq hplain]

theorem Bound.fieldNullable_eq {r : Record} {ks : List HostClass.Constructor} {c : HostClass}
    (h : Bound markers enums r.name r.instanceFields ks r.publicMethods c) {f : Field}
    (hf : f ∈ r.instanceFields) {g : HostClass.Field} (hfg : f.DescribedBy markers enums g) :
    c.fieldNullable g = r.fieldMayBeEmpty markers enums f := by
  obtain ⟨plain, hplain, htype⟩ := hfg.type
  have hgetter := h.getters f hf
  rw [HostClass.fieldNullable, fieldMayBeEmpty, htype, hfg.name, nullable_withNullable,
    namesPrimitive_eq hplain, HostClass.getterFor?]
  generalize hfirst : (r.readers enums).find? (f.isReadBy enums) = first,
    c.getters.find? (·.field == some f.name) = getter at hgetter ⊢
  rw [← readers, hfirst] at hgetter
  cases hgetter with
  | none => rfl
  -- the method returns a primitive value just if the field holds one, so that one test is enough
  | @some m d hmd =>
    have hprimitive := namesPrimitive_of_isReadBy (List.find?_some hfirst)
    rw [namesPrimitive_eq hplain] at hprimitive
    dsimp only
    rw [hmd.nullable_returns, Method.mayReturnNothing, hprimitive, Option.any_some]
    cases plain.isPrimitive <;> rfl

theorem Bound.getterNullable_eq {r : Record} {ks : List HostClass.Constructor} {c : HostClass}
    (hnames : (r.instanceFields.map Field.name).Nodup)
    (h : Bound markers enums r.name r.instanceFields ks r.publicMethods c) {f : Field}
    (hf : f ∈ r.instanceFields) {d : HostClass.Method} (hd : c.getterFor? f.name = some d) :
    c.getterNullable d = r.fieldMayBeEmpty markers enums f := by
  obtain ⟨g, hg, hfg⟩ := h.exists_field? hnames hf
  have hfield : d.field = some f.name := by simpa using List.find?_some hd
  rw [HostClass.getterNullable, hfield, Option.bind_some, hg]
  exact h.fieldNullable_eq hf hfg

theorem Bound.setterNullable_eq {r : Record} {ks : List HostClass.Constructor} {c : HostClass}
    (hnames : (r.instanceFields.map Field.name).Nodup)
    (h : Bound markers enums r.name r.instanceFields ks r.publicMethods c) {f : Field}
    (hf : f ∈ r.instanceFields) {d : HostClass.Method} (hd : c.setterFor? f.name = some d) :
    c.setterNullable d = r.fieldMayBeEmpty markers enums f := by
  obtain ⟨g, hg, hfg⟩ := h.exists_field? hnames hf
  have hfield : d.field = some f.name := by simpa using List.find?_some hd
  rw [HostClass.setterNullable, hfield, Option.bind_some, hg]
  exact h.fieldNullable_eq hf hfg

theorem Method.GetterDescribedBy.getterNullable_eq {c : HostClass} {className : String} {m : Method}
    {d : HostClass.Method} (h : m.GetterDescribedBy markers enums className d)
    (hcomputed : d.field = none) : c.getterNullable d = m.mayReturnNothing markers enums := by
  rw [HostClass.getterNullable, hcomputed, Option.bind_none]
  exact h.nullable_returns

theorem showsAs_of_stands {context : Outline.Context} {source : String} {plain host : HostType}
    {nullable optional : Bool} {type : Outline.MemberType}
    (hplain : typeNamed? enums source = some plain) (hhost : host = plain.withNullable nullable)
    (htype : type.Stands context host optional) :
    Place.ShowsAs ⟨enums, context.catalog, context.package⟩ source optional type := by
  have hnoOption := ScalaType.holdsOption_of_typeFor htype.mapped
  refine ⟨types_of_stands hplain hhost htype, ?_, ?_, hnoOption⟩
  . rw [htype.target]
    cases optional with
    | true => simp [withNullable]
    | false =>
      have hne : type.mapped ≠ .option type.mapped := by
        intro heq
        rw [heq] at hnoOption
        cases hnoOption
      simpa [withNullable] using hne
  . rintro rfl
    exact htype.target

/-- A member is optional if and only if its value may be absent. For a field that is a matter of its
own annotations and of those of the method that reads it, for a computed value of those of its method,
and for a parameter of a constructor of its own. A primitive value is never absent. -/
theorem optional_members (markers : Markers) (enums : List String) (r : Record) (c : HostClass)
    (catalog : Catalog) (o : Outline) (hclass : r.isEnum = false)
    (hdescribe : describe markers enums r = .ok c)
    (houtline : Outline.ofClass catalog c = .ok o) :
    let place : Place := ⟨enums, catalog, o.package⟩
    ∃ constructors bound computed setters,
      o.body = .members constructors (bound ++ computed) setters ∧
      List.Forall₂
        (fun k l => List.Forall₂
          (fun p q => place.ShowsAs p.type (p.mayBeAbsent markers enums) q.type)
          k.parameters l.parameters)
        r.publicConstructors constructors ∧
      List.Forall₂
        (fun (f, m) g => place.ShowsAs m.returns (r.fieldMayBeEmpty markers enums f) g.type)
        (r.fieldReaders enums) bound ∧
      List.Forall₂
        (fun m g => place.ShowsAs m.returns (m.mayReturnNothing markers enums) g.type)
        (r.computedReaders enums) computed ∧
      List.Forall₂
        (fun (f, m) s => ∃ p, m.parameters = [p] ∧
          place.ShowsAs p.type (r.fieldMayBeEmpty markers enums f) s.type)
        (r.fieldAssigners enums) setters := by
  intro place
  obtain ⟨hnames, -, hbound⟩ := bound_of_describe hclass hdescribe
  obtain ⟨constructors, bound, computed, setters, hbody, hmembers⟩ :=
    outlined_of_ofClass hclass hdescribe houtline
  -- a member is what its description says, and that follows the field if there is one
  refine ⟨constructors, bound, computed, setters, hbody, ?_, ?_, ?_, ?_⟩
  . apply hmembers.constructors.imp
    intro k l hparameters
    apply hparameters.imp
    rintro p q ⟨d, hdescribed, houtlines⟩
    obtain ⟨plain, hplain, htype⟩ := hdescribed.type
    rw [← hdescribed.parameterNullable_eq]
    exact showsAs_of_stands hplain htype houtlines.type
  . apply hmembers.bound.imp
    rintro ⟨f, m⟩ g ⟨hf, d, hdescribed, hgetter, houtlines⟩
    obtain ⟨plain, hplain, htype⟩ := hdescribed.returns
    have hstands := houtlines.type
    rw [hbound.getterNullable_eq hnames hf hgetter] at hstands
    exact showsAs_of_stands hplain htype hstands
  . apply hmembers.computed.imp
    rintro m g ⟨d, hdescribed, hcomputed, houtlines⟩
    obtain ⟨plain, hplain, htype⟩ := hdescribed.returns
    have hstands := houtlines.type
    rw [hdescribed.getterNullable_eq hcomputed] at hstands
    exact showsAs_of_stands hplain htype hstands
  . apply hmembers.setters.imp
    rintro ⟨f, m⟩ s ⟨hf, d, hdescribed, hsetter, houtlines⟩
    obtain ⟨p, plain, hparameters, hplain, htype⟩ := hdescribed.parameter
    obtain ⟨t, ht, hstands⟩ := houtlines.type
    rw [htype, List.cons.injEq] at ht
    rw [hbound.setterNullable_eq hnames hf hsetter] at hstands
    exact ⟨p, hparameters, showsAs_of_stands hplain ht.1.symm hstands⟩

def annotatedGetter (name : String) (annotations : List String) : Method where
  name
  returns := "String"
  parameters := []
  throws := []
  annotations
  modifiers := [.public]

def annotatedSetter (name : String) (annotations : List String) : Method where
  name
  returns := "void"
  parameters := [⟨"value", "String", annotations⟩]
  throws := []
  annotations := []
  modifiers := [.public]

def profileRecord : Record where
  name := "p.Profile"
  kind := .class
  constants := []
  modifiers := [.public]
  fields := [⟨"name", "String", [], ["@lombok.NonNull"]⟩, ⟨"note", "String", [], []⟩,
    ⟨"nick", "String", [], []⟩, ⟨"size", "int", [], []⟩]
  constructors := [⟨[⟨"name", "String", []⟩, ⟨"note", "String", ["javax.annotation.Nullable"]⟩,
    ⟨"size", "int", ["javax.annotation.Nullable"]⟩], [.public]⟩]
  methods := [
    annotatedGetter "getName" [],
    annotatedGetter "getNote" [],
    annotatedGetter "getNick" ["lombok.NonNull"],
    annotatedGetter "getTitle" ["lombok.NonNull"],
    annotatedGetter "getRemark" ["lombok.NonNull", "javax.annotation.Nullable"],
    { annotatedGetter "getSize" [] with returns := "int" },
    annotatedSetter "setNote" ["lombok.NonNull"],
    annotatedSetter "setNick" []
  ]

def isOptional (type : Outline.MemberType) : Bool :=
  type.target == .option type.mapped

theorem Place.ShowsAs.isOptional_eq {place : Place} {source : String} {optional : Bool}
    {type : Outline.MemberType} (h : place.ShowsAs source optional type) :
    isOptional type = optional := by
  rw [Bool.eq_iff_iff, isOptional, beq_iff_eq]
  exact h.option

theorem profileRecord_optional :
    profileRecord.isEnum = false ∧ ∃ c o constructors bound computed setters,
      describe .standard [] profileRecord = .ok c ∧
      Outline.ofClass ⟨[("p.Profile", ⟨"p.Profile", "p", "Profile", false⟩)], []⟩ c = .ok o ∧
      o.body = .members constructors (bound ++ computed) setters ∧
      constructors.map (fun l => l.parameters.map (isOptional ·.type)) = [[false, true, false]] ∧
      bound.map (isOptional ·.type) = [false, true, false, false] ∧
      computed.map (isOptional ·.type) = [false, true] ∧
      setters.map (isOptional ·.type) = [true, false] := by
  refine ⟨rfl, ?_⟩
  have hrun : (outlineOf .standard []
      ⟨[("p.Profile", ⟨"p.Profile", "p", "Profile", false⟩)], []⟩ profileRecord).map Outline.name =
        .ok "Profile" := by decide +kernel
  obtain ⟨c, o, hdescribe, houtline, -⟩ := exists_outline_of_map hrun
  obtain ⟨constructors, bound, computed, setters, hbody, hconstructors, hbound, hcomputed, hsetters⟩ :=
    optional_members .standard [] profileRecord c _ o rfl hdescribe houtline
  refine ⟨c, o, constructors, bound, computed, setters, hdescribe, houtline, hbody, ?_, ?_, ?_, ?_⟩
  . rw [map_eq_of_forall₂ hconstructors fun k l hkl =>
      map_eq_of_forall₂ hkl fun p q hpq => hpq.isOptional_eq]
    decide +kernel
  . rw [map_eq_of_forall₂ hbound fun read g hread => hread.isOptional_eq]
    decide +kernel
  . rw [map_eq_of_forall₂ hcomputed fun m g hread => hread.isOptional_eq]
    decide +kernel
  . rw [map_eq_of_forall₂ hsetters fun assigned s ⟨p, _, hassigned⟩ => hassigned.isOptional_eq]
    decide +kernel

end Record

end Facade
