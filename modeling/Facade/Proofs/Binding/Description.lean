import Facade.Proofs.Binding.Members

/-!
This module contains what it means that a part of a class describes a part of a record, and the proofs
that what is described on its own, apart from all methods, is described so.
-/

namespace Facade.Record

open Host Outcome Settings

variable {markers : Markers} {enums : List String} {className : String}

structure Field.DescribedBy (markers : Markers) (enums : List String) (f : Field)
    (g : HostClass.Field) : Prop where
  name : g.name = f.name
  isFinal : g.isFinal = f.isFinal
  type : ∃ plain, typeNamed? enums f.type = some plain ∧
    g.type = plain.withNullable (!markers.saysPresent f.annotations)

structure Parameter.DescribedBy (markers : Markers) (enums : List String) (p : Parameter)
    (q : HostClass.Parameter) : Prop where
  name : q.name = p.name
  type : ∃ plain, typeNamed? enums p.type = some plain ∧
    q.type = plain.withNullable (markers.saysNullable p.annotations)

def Constructor.DescribedBy (markers : Markers) (enums : List String) (k : Constructor)
    (l : HostClass.Constructor) : Prop :=
  List.Forall₂ (Parameter.DescribedBy markers enums) k.parameters l.parameters

/-- Whether a getter of a class describes a method. -/
structure Method.GetterDescribedBy (markers : Markers) (enums : List String) (className : String)
    (m : Method) (g : HostClass.Method) : Prop where
  name : g.name = m.name
  returns : ∃ plain, typeNamed? enums m.returns = some plain ∧
    g.returns = plain.withNullable (!markers.saysPresent m.annotations)
  throws : m.throws.mapM (readException (methodName className m.name)) = .ok g.throws

/-- Whether a setter of a class describes a method. -/
structure Method.SetterDescribedBy (markers : Markers) (enums : List String) (className : String)
    (m : Method) (s : HostClass.Method) : Prop where
  name : s.name = m.name
  parameter : ∃ p plain, m.parameters = [p] ∧ typeNamed? enums p.type = some plain ∧
    s.parameters = [plain.withNullable (!markers.saysPresent p.annotations)]
  throws : m.throws.mapM (readException (methodName className m.name)) = .ok s.throws

theorem sameShape_withNullable (t u : HostType) (nullable nullable' : Bool) :
    (t.withNullable nullable).sameShape (u.withNullable nullable') = t.sameShape u := by
  cases t
  cases u
  rfl

theorem Field.DescribedBy.hasProperty_eq {f : Field} {g : HostClass.Field}
    (h : f.DescribedBy markers enums g) (property : String) (plain : HostType) (nullable : Bool) :
    (g.name == property && g.type.sameShape (plain.withNullable nullable)) =
      f.hasProperty enums (property, plain) := by
  obtain ⟨plain', hplain', htype⟩ := h.type
  rw [Field.hasProperty, hplain', htype, h.name, Option.any_some, sameShape_withNullable]

theorem Field.DescribedBy.acceptsGetter_eq {f : Field} {g : HostClass.Field}
    (h : f.DescribedBy markers enums g) (property : String) (plain : HostType) (nullable : Bool) :
    acceptsGetter property (plain.withNullable nullable) g =
      (f.hasProperty enums (property, plain) && !g.hasGetter) := by
  rw [acceptsGetter, Bool.and_right_comm, h.hasProperty_eq]

theorem Field.DescribedBy.acceptsSetter_eq {f : Field} {g : HostClass.Field}
    (h : f.DescribedBy markers enums g) (property : String) (plain : HostType) (nullable : Bool) :
    acceptsSetter property (plain.withNullable nullable) g =
      (f.hasProperty enums (property, plain) && !g.hasSetter) := by
  rw [acceptsSetter, Bool.and_right_comm, h.hasProperty_eq]

theorem describeParameter_describedBy {index : Nat} {p : Parameter} {q : HostClass.Parameter}
    (h : describeParameter markers enums className index p = .ok q) :
    p.DescribedBy markers enums q := by
  unfold describeParameter at h
  dsimp only at h
  split at h
  . cases h
  . obtain ⟨type, htype, h⟩ := bind_eq_ok_iff.mp h
    cases h
    exact ⟨rfl, type, readType_eq_ok_iff.mp htype, rfl⟩

theorem describeConstructors_describedBy {index : Nat} {ks : List Constructor}
    {ls : List HostClass.Constructor}
    (h : describeConstructors markers enums className index ks = .ok ls) :
    List.Forall₂ (Constructor.DescribedBy markers enums) ks ls := by
  induction ks generalizing index ls with
  | nil =>
    cases h
    exact .nil
  | cons k ks ih =>
    obtain ⟨parameters, hparameters, h⟩ := bind_eq_ok_iff.mp h
    obtain ⟨rest, hrest, h⟩ := bind_eq_ok_iff.mp h
    cases h
    refine .cons ?_ (ih hrest)
    exact (mapM_eq_ok_iff.mp hparameters).imp fun p q => describeParameter_describedBy

end Facade.Record
