import Facade.Proofs.Binding.Matching
import Facade.Proofs.Outcome
import Facade.Record.Extract

/-!
This module contains the members of a record that a description is about, as they are there to be
read: the types that texts name, the properties that methods read and assign, and which method is
the one for a field.
-/

namespace Facade

open Host Outcome Text

namespace Settings

def Markers.saysPresent (markers : Markers) (annotations : List String) : Bool :=
  markers.saysNonNull annotations && !markers.saysNullable annotations

end Settings

namespace Record

open Settings

def typeNamed? (enums : List String) (source : String) : Option HostType :=
  if trimmed source = "void" then none
  else (Signature.parse source.toList).toOption.map (typeOf enums)

def Method.read? (enums : List String) (m : Method) : Option (String × HostType) :=
  if m.parameters.isEmpty && !m.isVoid then
    (typeNamed? enums m.returns).bind fun type =>
      (getterProperty? m.name type.isBoolean).map fun property => (property, type)
  else none

def Method.assigned? (enums : List String) (m : Method) : Option (String × HostType) :=
  match m.parameters with
  | [p] =>
    (setterProperty? m.name).bind fun property =>
      (typeNamed? enums p.type).map fun type => (property, type)
  | _ => none

/-- Whether a property is that of a field. What may be absent in their types makes no difference. -/
def Field.hasProperty (enums : List String) (f : Field) (property : String × HostType) : Bool :=
  f.name == property.1 && (typeNamed? enums f.type).any (·.sameShape property.2)

/-- Whether a method reads the property of a field. -/
def Field.isReadBy (enums : List String) (f : Field) (m : Method) : Bool :=
  (m.read? enums).any (f.hasProperty enums)

/-- Whether a method assigns the property of a field. -/
def Field.isAssignedBy (enums : List String) (f : Field) (m : Method) : Bool :=
  (m.assigned? enums).any (f.hasProperty enums)

/-- The fields of the instances of a class. -/
def instanceFields (r : Record) : List Field :=
  r.fields.filter fun f => !f.isStatic

def readersAmong (enums : List String) (methods : List Method) : List Method :=
  methods.filter fun m => (m.read? enums).isSome

/-- The methods that read a property. -/
def readers (enums : List String) (r : Record) : List Method :=
  readersAmong enums r.publicMethods

/-- The fields that are read, each with the first method that does so. -/
def fieldReaders (enums : List String) (r : Record) : List (Field × Method) :=
  Matching.firsts (Field.isReadBy enums) r.instanceFields (r.readers enums)

/-- The methods that read a property, without the first one for each field. -/
def computedReaders (enums : List String) (r : Record) : List Method :=
  Matching.leftover (Field.isReadBy enums) r.instanceFields (r.readers enums)

/-- The fields that are assigned, each with the first method that does so. -/
def fieldAssigners (enums : List String) (r : Record) : List (Field × Method) :=
  Matching.firsts (Field.isAssignedBy enums) r.instanceFields r.publicMethods

variable {enums : List String}

theorem readType_eq_ok_iff {member source : String} {type : HostType} :
    readType enums member source = .ok type ↔ typeNamed? enums source = some type := by
  unfold readType typeNamed?
  split
  . simp
  . cases Signature.parse source.toList <;> simp [Except.toOption]

theorem readDeclaredType_eq_ok_iff {markers : Markers} {member source : String}
    {annotations : List String} {type : HostType} :
    readDeclaredType markers enums member source annotations = .ok type ↔
      ∃ plain, typeNamed? enums source = some plain ∧
        type = plain.withNullable (!markers.saysPresent annotations) := by
  unfold readDeclaredType
  simp only [bind_eq_ok_iff, readType_eq_ok_iff, pure_eq_ok, Except.ok.injEq]
  have hnullable : (markers.saysNullable annotations || !markers.saysNonNull annotations) =
      !markers.saysPresent annotations := by
    rw [Markers.saysPresent, Bool.not_and, Bool.not_not, Bool.or_comm]
  simp only [hnullable, eq_comm]

theorem Method.typeNamed?_of_read? {m : Method} {property : String} {type : HostType}
    (h : m.read? enums = some (property, type)) : typeNamed? enums m.returns = some type := by
  unfold read? at h
  split at h
  . obtain ⟨type', htype, h⟩ := Option.bind_eq_some_iff.mp h
    obtain ⟨property', -, h⟩ := Option.map_eq_some_iff.mp h
    cases h
    exact htype
  . cases h

theorem Method.exists_of_assigned? {m : Method} {property : String} {type : HostType}
    (h : m.assigned? enums = some (property, type)) : ∃ p, m.parameters = [p] ∧
      setterProperty? m.name = some property ∧ typeNamed? enums p.type = some type := by
  unfold Method.assigned? at h
  split at h
  . next p hparameters =>
    obtain ⟨property', hproperty, h⟩ := Option.bind_eq_some_iff.mp h
    obtain ⟨type', htype, h⟩ := Option.map_eq_some_iff.mp h
    cases h
    exact ⟨p, hparameters, hproperty, htype⟩
  . cases h

theorem Field.isAssignedBy_eq_false {f : Field} {m : Method} (h : m.assigned? enums = none) :
    f.isAssignedBy enums m = false := by
  rw [isAssignedBy, h, Option.any_none]

theorem Field.name_of_hasProperty {f : Field} {property : String × HostType}
    (h : f.hasProperty enums property = true) : f.name = property.1 := by
  rw [hasProperty, Bool.and_eq_true] at h
  exact beq_iff_eq.mp h.1

theorem exclusive_hasProperty {fields : List Field} (h : (fields.map Field.name).Nodup)
    (property? : Method → Option (String × HostType)) :
    Matching.Exclusive (fun f m => (property? m).any (f.hasProperty enums)) fields := by
  unfold Matching.Exclusive
  rw [List.nodup_iff_pairwise_ne, List.pairwise_map] at h
  apply h.imp
  intro f f' hne m hf
  dsimp only at hf ⊢
  cases hproperty : property? m with
  | none => rfl
  | some property =>
    rw [hproperty, Option.any_some] at hf
    rw [Option.any_some, ← Bool.not_eq_true]
    intro hf'
    exact hne ((Field.name_of_hasProperty hf).trans (Field.name_of_hasProperty hf').symm)

theorem readersAmong_concat (methods : List Method) (m : Method) :
    readersAmong enums (methods ++ [m]) =
      readersAmong enums methods ++ if (m.read? enums).isSome then [m] else [] := by
  unfold readersAmong
  rw [List.filter_append, List.filter_singleton, cond_eq_ite]

end Record

end Facade
