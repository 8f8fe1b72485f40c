import Facade.Proofs.Binding.Description
import Facade.Scala.ScalaType

/-!
This module contains the proofs that it makes no difference to a type whether the classes in it are
known to be enumerations: such a type is compared, shown and replaced by a wrapper's type as that of
any other class.
-/

namespace Facade

open Host Outcome

namespace Host

namespace Scalar

theorem ofPlain?_eq_some_iff {name : String} {s : Scalar} :
    ofPlain? name = some s ↔ s.plainName = name := by
  constructor
  . intro h
    exact beq_iff_eq.mp (List.find?_some h :)
  . rintro rfl
    cases s <;> decide

theorem ofBoxed?_eq_some_iff {name : String} {s : Scalar} :
    ofBoxed? name = some s ↔ s.boxedName? = some name := by
  constructor
  . intro h
    exact beq_iff_eq.mp (List.find?_some h :)
  . intro h
    cases s <;> cases h <;> decide

end Scalar

def TypeKind.withoutEnums : TypeKind → TypeKind
  | enumeration => object
  | kind => kind

namespace HostType

mutual

def withoutEnums : HostType → HostType
  | mk kind name arguments nullable =>
    mk kind.withoutEnums name (allWithoutEnums arguments) nullable

def allWithoutEnums : List HostType → List HostType
  | [] => []
  | t :: ts => t.withoutEnums :: allWithoutEnums ts

end

@[simp]
theorem name_withoutEnums (t : HostType) : t.withoutEnums.name = t.name := by
  cases t
  rfl

@[simp]
theorem nullable_withoutEnums (t : HostType) : t.withoutEnums.nullable = t.nullable := by
  cases t
  rfl

@[simp]
theorem scalar?_withoutEnums (t : HostType) : t.withoutEnums.scalar? = t.scalar? := by
  obtain ⟨kind, name, arguments, nullable⟩ := t
  cases kind <;> rfl

@[simp]
theorem isBoolean_withoutEnums (t : HostType) : t.withoutEnums.isBoolean = t.isBoolean := by
  rw [isBoolean, isBoolean, scalar?_withoutEnums]

@[simp]
theorem isPrimitive_withoutEnums (t : HostType) : t.withoutEnums.isPrimitive = t.isPrimitive := by
  obtain ⟨kind, name, arguments, nullable⟩ := t
  cases kind <;> rfl

theorem withNullable_withoutEnums (nullable : Bool) (t : HostType) :
    (t.withNullable nullable).withoutEnums = t.withoutEnums.withNullable nullable := by
  have hprimitive := isPrimitive_withoutEnums t
  obtain ⟨kind, name, arguments, nullable'⟩ := t
  simp only [withNullable, hprimitive]
  rfl

@[simp]
theorem length_allWithoutEnums (ts : List HostType) :
    (allWithoutEnums ts).length = ts.length := by
  induction ts with
  | nil => rfl
  | cons t ts ih => rw [allWithoutEnums, List.length_cons, List.length_cons, ih]

mutual

theorem mentions_withoutEnums (target : String) :
    ∀ t : HostType, t.withoutEnums.mentions target = t.mentions target
  | mk kind name arguments nullable => by
    rw [withoutEnums, mentions, mentions, anyMentions_withoutEnums target arguments]

theorem anyMentions_withoutEnums (target : String) :
    ∀ ts : List HostType, anyMentions target (allWithoutEnums ts) = anyMentions target ts
  | [] => rfl
  | t :: ts => by
    rw [allWithoutEnums, anyMentions, anyMentions, mentions_withoutEnums target t,
      anyMentions_withoutEnums target ts]

end

mutual

theorem render_withoutEnums : ∀ t : HostType, t.withoutEnums.render = t.render
  | mk kind name [] nullable => rfl
  | mk kind name (t :: ts) nullable => by
    rw [withoutEnums, allWithoutEnums, render, render, render_withoutEnums t,
      renderMore_withoutEnums ts]

theorem renderMore_withoutEnums :
    ∀ ts : List HostType, renderMore (allWithoutEnums ts) = renderMore ts
  | [] => rfl
  | t :: ts => by
    rw [allWithoutEnums, renderMore, renderMore, render_withoutEnums t, renderMore_withoutEnums ts]

end

def Alike (t t' : HostType) : Prop :=
  t.withoutEnums = t'.withoutEnums

variable {t t' : HostType}

theorem Alike.isBoolean (h : t.Alike t') : t.isBoolean = t'.isBoolean := by
  rw [← isBoolean_withoutEnums, h, isBoolean_withoutEnums]

theorem Alike.nullable (h : t.Alike t') : t.nullable = t'.nullable := by
  rw [← nullable_withoutEnums, h, nullable_withoutEnums]

theorem Alike.mentions (h : t.Alike t') (target : String) :
    t.mentions target = t'.mentions target := by
  rw [← mentions_withoutEnums, h, mentions_withoutEnums]

end HostType

end Host

namespace Record

open HostType

theorem simpleType_withoutEnums (enums : List String) (name : String) :
    (simpleType enums name).withoutEnums = simpleType [] name := by
  unfold simpleType
  split
  . rfl
  . next s _ =>
    unfold boxed
    split <;> rfl
  . have hnone : ¬ ([] : List String).contains name = true := by simp
    rw [if_neg hnone]
    split <;> rfl

mutual

theorem typeOf_withoutEnums (enums : List String) :
    ∀ s : Signature, (typeOf enums s).withoutEnums = typeOf [] s
  | .mk name [] => simpleType_withoutEnums enums (fullName name)
  | .mk name (a :: as) => by
    rw [typeOf, typeOf, applied, applied, withoutEnums, allWithoutEnums,
      typeOf_withoutEnums enums a, typesOf_withoutEnums enums as]
    rfl

theorem typesOf_withoutEnums (enums : List String) :
    ∀ ss : List Signature, allWithoutEnums (typesOf enums ss) = typesOf [] ss
  | [] => rfl
  | s :: ss => by
    rw [typesOf, typesOf, allWithoutEnums, typeOf_withoutEnums enums s,
      typesOf_withoutEnums enums ss]

end

theorem name_simpleType (enums : List String) (name : String) :
    (simpleType enums name).name = name := by
  unfold simpleType
  split
  . next s hplain => exact Scalar.ofPlain?_eq_some_iff.mp hplain
  . next s _ hboxed =>
    rw [boxed, Scalar.ofBoxed?_eq_some_iff.mp hboxed]
    rfl
  . split <;> rfl

theorem arguments_simpleType (enums : List String) (name : String) :
    (simpleType enums name).arguments = [] := by
  unfold simpleType
  split
  . rfl
  . unfold boxed
    split <;> rfl
  . split <;> rfl

theorem kind_simpleType (enums : List String) (name : String) :
    (simpleType enums name).kind ≠ .applied := by
  unfold simpleType
  split
  . nofun
  . unfold boxed
    split <;> nofun
  . split <;> nofun

theorem sameShape_eq_false {t u : HostType} (h : t.kind ≠ u.kind ∨ t.name ≠ u.name) :
    t.sameShape u = false := by
  cases t
  cases u
  rw [sameShape, Bool.and_eq_false_imp]
  intro hsame
  rw [Bool.and_eq_true, beq_iff_eq, beq_iff_eq] at hsame
  exact absurd hsame (not_and_or.mpr h)

theorem sameShape_simpleType (enums : List String) (name name' : String) :
    (simpleType enums name).sameShape (simpleType enums name') = (name == name') := by
  by_cases h : name = name'
  . subst h
    have harguments := arguments_simpleType enums name
    generalize simpleType enums name = t at harguments
    obtain ⟨kind, name', arguments, nullable⟩ := t
    simp only [HostType.arguments] at harguments
    simp [sameShape, harguments, allSameShape]
  . rw [beq_false_of_ne h]
    apply sameShape_eq_false
    right
    rwa [name_simpleType, name_simpleType]

mutual

/-- Two types that were read are compared in the same way whichever classes are enumerations. -/
theorem sameShape_typeOf (enums enums' : List String) : ∀ s u : Signature,
    (typeOf enums s).sameShape (typeOf enums u) = (typeOf enums' s).sameShape (typeOf enums' u)
  | .mk name [], .mk name' [] => by
    rw [typeOf, typeOf, typeOf, typeOf, sameShape_simpleType, sameShape_simpleType]
  | .mk name [], .mk name' (b :: bs) => by
    rw [typeOf, typeOf, typeOf, typeOf, sameShape_eq_false (.inl (kind_simpleType _ _)),
      sameShape_eq_false (.inl (kind_simpleType _ _))]
  | .mk name (a :: as), .mk name' [] => by
    have happlied : ∀ (enums : List String) (arguments : List HostType),
        (applied (fullName name) arguments).sameShape (simpleType enums (fullName name')) = false :=
      fun enums _ => sameShape_eq_false (.inl (kind_simpleType enums _).symm)
    rw [typeOf, typeOf, typeOf, typeOf, happlied, happlied]
  | .mk name (a :: as), .mk name' (b :: bs) => by
    simp only [typeOf, applied, sameShape, allSameShape, sameShape_typeOf enums enums' a b,
      allSameShape_typesOf enums enums' as bs]

theorem allSameShape_typesOf (enums enums' : List String) : ∀ ss us : List Signature,
    allSameShape (typesOf enums ss) (typesOf enums us) =
      allSameShape (typesOf enums' ss) (typesOf enums' us)
  | [], [] => rfl
  | [], _ :: _ => rfl
  | _ :: _, [] => rfl
  | s :: ss, u :: us => by
    simp only [typesOf, allSameShape, sameShape_typeOf enums enums' s u,
      allSameShape_typesOf enums enums' ss us]

end

def ReadAlike (enums enums' : List String) (t t' : HostType) : Prop :=
  ∃ signature nullable, t = (typeOf enums signature).withNullable nullable ∧
    t' = (typeOf enums' signature).withNullable nullable

variable {enums enums' : List String} {t t' u u' : HostType}

theorem ReadAlike.alike (h : ReadAlike enums enums' t t') : t.Alike t' := by
  obtain ⟨signature, nullable, rfl, rfl⟩ := h
  rw [Alike, withNullable_withoutEnums, withNullable_withoutEnums, typeOf_withoutEnums,
    typeOf_withoutEnums]

theorem ReadAlike.sameShape (h : ReadAlike enums enums' t t') (h' : ReadAlike enums enums' u u') :
    t.sameShape u = t'.sameShape u' := by
  obtain ⟨signature, nullable, rfl, rfl⟩ := h
  obtain ⟨signature', nullable', rfl, rfl⟩ := h'
  rw [sameShape_withNullable, sameShape_withNullable, sameShape_typeOf enums enums']

end Record

namespace Scala

open HostType

mutual

theorem typeFor_withoutEnums (catalog : Catalog) (package : String) : ∀ t : HostType,
    typeFor catalog package t.withoutEnums =
      (typeFor catalog package t).mapError HostType.withoutEnums
  | .mk kind name arguments nullable => by
    rw [withoutEnums]
    unfold typeFor
    cases kind with
    | plain => cases Scalar.ofPlain? name <;> rfl
    | boxed => cases Scalar.ofBoxed? name <;> rfl
    | enumeration => cases namedType? catalog package name <;> rfl
    | object => cases namedType? catalog package name <;> rfl
    | applied =>
      simp only [TypeKind.withoutEnums, length_allWithoutEnums]
      cases Collection.of? name arguments.length with
      | none => rfl
      | some collection =>
        dsimp only
        rw [typesFor_withoutEnums catalog package arguments]
        cases typesFor catalog package arguments <;> rfl

theorem typesFor_withoutEnums (catalog : Catalog) (package : String) : ∀ ts : List HostType,
    typesFor catalog package (allWithoutEnums ts) =
      (typesFor catalog package ts).mapError HostType.withoutEnums
  | [] => rfl
  | t :: ts => by
    rw [allWithoutEnums, typesFor, typesFor, typeFor_withoutEnums catalog package t,
      typesFor_withoutEnums catalog package ts]
    cases typeFor catalog package t with
    | error unresolved => rfl
    | ok type => cases typesFor catalog package ts <;> rfl

end

theorem typeForMember_of_alike {t t' : HostType} (h : t.Alike t') (catalog : Catalog)
    (package member : String) :
    typeForMember catalog package member t = typeForMember catalog package member t' := by
  have hforget : ∀ t : HostType, typeForMember catalog package member t.withoutEnums =
      typeForMember catalog package member t := by
    intro t
    rw [typeForMember, typeForMember, typeFor_withoutEnums]
    cases typeFor catalog package t with
    | ok type => rfl
    | error unresolved => simp only [Except.mapError, render_withoutEnums]
  rw [← hforget t, h, hforget t']

end Scala

end Facade
