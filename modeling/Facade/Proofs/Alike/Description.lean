import Facade.Proofs.Alike.Types
import Facade.Proofs.Binding.Bound

/-!
This module contains the proof that a record is described in the same way whichever classes are known
to be enumerations: the descriptions are the same but for that, and a flaw is found in both or none.
-/

namespace Facade

open Host Outcome Settings

namespace Host.HostClass

structure Field.Alike (enums enums' : List String) (f f' : Field) : Prop where
  name : f.name = f'.name
  isFinal : f.isFinal = f'.isFinal
  hasGetter : f.hasGetter = f'.hasGetter
  hasSetter : f.hasSetter = f'.hasSetter
  type : Record.ReadAlike enums enums' f.type f'.type

structure Parameter.Alike (p p' : Parameter) : Prop where
  name : p.name = p'.name
  type : p.type.Alike p'.type

def Constructor.Alike (k k' : Constructor) : Prop :=
  List.Forall₂ Parameter.Alike k.parameters k'.parameters

structure Method.Alike (m m' : Method) : Prop where
  name : m.name = m'.name
  parameters : List.Forall₂ HostType.Alike m.parameters m'.parameters
  returns : m.returns.Alike m'.returns
  throws : m.throws = m'.throws
  field : m.field = m'.field

end Host.HostClass

/-- Whether two classes are one class, described where different classes are enumerations. -/
structure Host.HostClass.Alike (enums enums' : List String) (c c' : HostClass) : Prop where
  name : c.name = c'.name
  isEnum : c.isEnum = c'.isEnum
  constants : c.constants = c'.constants
  fields : List.Forall₂ (HostClass.Field.Alike enums enums') c.fields c'.fields
  constructors : List.Forall₂ HostClass.Constructor.Alike c.constructors c'.constructors
  getters : List.Forall₂ HostClass.Method.Alike c.getters c'.getters
  setters : List.Forall₂ HostClass.Method.Alike c.setters c'.setters

namespace Record

open HostClass

variable {markers : Markers} {enums enums' : List String} {c c' : HostClass}

theorem readType_agree (enums enums' : List String) (member source : String) :
    Agree (fun t t' => ∃ signature, t = typeOf enums signature ∧ t' = typeOf enums' signature)
      (readType enums member source) (readType enums' member source) := by
  unfold readType
  split
  . exact .error _
  . cases Signature.parse source.toList with
    | ok signature => exact .ok ⟨signature, rfl, rfl⟩
    | error error => exact .error _

theorem readDeclaredType_agree (markers : Markers) (enums enums' : List String)
    (member source : String) (annotations : List String) :
    Agree (ReadAlike enums enums') (readDeclaredType markers enums member source annotations)
      (readDeclaredType markers enums' member source annotations) := by
  apply (readType_agree enums enums' member source).bind
  rintro _ _ ⟨signature, rfl, rfl⟩
  exact .ok ⟨signature, _, rfl, rfl⟩

theorem readReturnType_agree (enums enums' : List String) (member : String) (m : Method) :
    Agree HostType.Alike (readReturnType enums member m) (readReturnType enums' member m) := by
  unfold readReturnType
  split
  . exact .ok rfl
  . rw [← bind_pure (readType enums member m.returns), ← bind_pure (readType enums' member m.returns)]
    apply (readType_agree enums enums' member m.returns).bind
    rintro _ _ ⟨signature, rfl, rfl⟩
    exact .ok ((typeOf_withoutEnums enums _).trans (typeOf_withoutEnums enums' _).symm)

theorem describeFields_agree (className : String) (fs : List Field)
    {done done' : List HostClass.Field} (h : List.Forall₂ (Field.Alike enums enums') done done') :
    Agree (List.Forall₂ (Field.Alike enums enums'))
      (describeFields markers enums className done fs)
      (describeFields markers enums' className done' fs) := by
  induction fs generalizing done done' with
  | nil => exact .ok h
  | cons f fs ih =>
    have hnames : done.map HostClass.Field.name = done'.map HostClass.Field.name := by
      rw [← List.forall₂_eq_eq_eq, List.forall₂_map_left_iff, List.forall₂_map_right_iff]
      exact h.imp fun _ _ hff' => hff'.name
    -- a name is repeated in both descriptions or in neither
    have hany : done.any (·.name == f.name) = done'.any (·.name == f.name) := by
      have hmap : ∀ gs : List HostClass.Field,
          gs.any (·.name == f.name) = (gs.map HostClass.Field.name).any (· == f.name) := by
        intro gs
        rw [List.any_map]
        rfl
      rw [hmap, hmap, hnames]
    unfold describeFields
    dsimp only
    rw [hany]
    split
    . exact .error _
    . apply (readDeclaredType_agree markers enums enums' _ _ _).bind
      intro type type' htype
      apply ih
      exact List.rel_append h (.cons ⟨rfl, rfl, rfl, rfl, htype⟩ .nil)

theorem describeParameter_agree (className : String) (index : Nat) (p : Parameter) :
    Agree Parameter.Alike (describeParameter markers enums className index p)
      (describeParameter markers enums' className index p) := by
  unfold describeParameter
  dsimp only
  split
  . exact .error _
  . apply (readType_agree enums enums' _ _).bind
    rintro _ _ ⟨signature, rfl, rfl⟩
    exact .ok ⟨rfl, ReadAlike.alike ⟨signature, _, rfl, rfl⟩⟩

theorem describeConstructors_agree (className : String) (index : Nat) (ks : List Constructor) :
    Agree (List.Forall₂ Constructor.Alike)
      (describeConstructors markers enums className index ks)
      (describeConstructors markers enums' className index ks) := by
  induction ks generalizing index with
  | nil => exact .ok .nil
  | cons k ks ih =>
    apply (Agree.mapM (describeParameter_agree className index) k.parameters).bind
    intro parameters parameters' hparameters
    apply (ih (index + 1)).bind
    intro rest rest' hrest
    exact .ok (.cons hparameters hrest)

theorem forall₂_changeFirst_of_eq {R : HostClass.Field → HostClass.Field → Prop}
    {fs fs' : List HostClass.Field} {test test' : HostClass.Field → Bool}
    {change : HostClass.Field → HostClass.Field} (h : List.Forall₂ R fs fs')
    (htest : ∀ f f', R f f' → test f = test' f') (hchange : ∀ f f', R f f' → R (change f) (change f')) :
    List.Forall₂ R (changeFirst test change fs) (changeFirst test' change fs') := by
  induction h with
  | nil => exact .nil
  | @cons f f' fs fs' hff' hrest ih =>
    rw [changeFirst, changeFirst, ← htest f f' hff']
    cases test f with
    | true => exact .cons (hchange f f' hff') hrest
    | false => exact .cons hff' ih

theorem acceptsGetter_eq_of_alike (property : String) {t t' : HostType}
    (ht : ReadAlike enums enums' t t') (f f' : HostClass.Field) (h : f.Alike enums enums' f') :
    acceptsGetter property t f = acceptsGetter property t' f' := by
  rw [acceptsGetter, acceptsGetter, h.name, h.hasGetter, h.type.sameShape ht]

theorem acceptsSetter_eq_of_alike (property : String) {t t' : HostType}
    (ht : ReadAlike enums enums' t t') (f f' : HostClass.Field) (h : f.Alike enums enums' f') :
    acceptsSetter property t f = acceptsSetter property t' f' := by
  rw [acceptsSetter, acceptsSetter, h.name, h.hasSetter, h.type.sameShape ht]

theorem bindGetter_agree (h : c.Alike enums enums' c') (m : Method) :
    Agree (HostClass.Alike enums enums') (bindGetter markers enums c m)
      (bindGetter markers enums' c' m) := by
  unfold bindGetter
  rw [h.name]
  apply (readDeclaredType_agree markers enums enums' _ _ _).bind
  intro type type' htype
  rw [htype.alike.isBoolean]
  cases getterProperty? m.name type'.isBoolean with
  | none => exact .ok h
  | some property =>
    have htest := acceptsGetter_eq_of_alike property htype
    apply Agree.bind_same
    intro throws
    refine .ok ⟨rfl, h.isEnum, h.constants, ?_, h.constructors, ?_, h.setters⟩
    . apply forall₂_changeFirst_of_eq h.fields htest
      exact fun f f' hff' => ⟨hff'.name, hff'.isFinal, rfl, hff'.hasSetter, hff'.type⟩
    . apply List.rel_append h.getters
      refine .cons ⟨rfl, .nil, htype.alike, rfl, ?_⟩ .nil
      exact (map_eq_of_rel (rel_find? h.fields htest) fun f f' hff' => hff'.name.symm).symm

theorem bindSetter_agree (h : c.Alike enums enums' c') (m : Method) (p : Parameter)
    (property : String) :
    Agree (HostClass.Alike enums enums') (bindSetter markers enums c m p property)
      (bindSetter markers enums' c' m p property) := by
  unfold bindSetter
  rw [h.name]
  apply (readDeclaredType_agree markers enums enums' _ _ _).bind
  intro type type' htype
  have htest := acceptsSetter_eq_of_alike property htype
  have hfind := rel_find? h.fields htest
  dsimp only
  generalize c.fields.find? (acceptsSetter property type) = field,
    c'.fields.find? (acceptsSetter property type') = field' at hfind ⊢
  cases hfind with
  | none => exact .ok h
  | some hfield =>
    apply (readReturnType_agree enums enums' _ m).bind
    intro returns returns' hreturns
    apply Agree.bind_same
    intro throws
    refine .ok ⟨rfl, h.isEnum, h.constants, ?_, h.constructors, h.getters, ?_⟩
    . apply forall₂_changeFirst_of_eq h.fields htest
      exact fun f f' hff' => ⟨hff'.name, hff'.isFinal, hff'.hasGetter, rfl, hff'.type⟩
    . apply List.rel_append h.setters
      exact .cons ⟨rfl, .cons htype.alike .nil, hreturns, rfl, congrArg some hfield.name⟩ .nil

theorem bindMethod_agree (h : c.Alike enums enums' c') (m : Method) :
    Agree (HostClass.Alike enums enums') (bindMethod markers enums c m)
      (bindMethod markers enums' c' m) := by
  unfold bindMethod
  split
  . exact bindGetter_agree h m
  . split
    . exact bindSetter_agree h m _ _
    . exact .ok h

/-- A record is described, or its flaw is found, whichever classes are enumerations. -/
theorem describe_agree (markers : Markers) (enums enums' : List String) (r : Record) :
    Agree (HostClass.Alike enums enums') (describe markers enums r)
      (describe markers enums' r) := by
  unfold describe
  apply Agree.bind_same
  intro _
  split
  . apply Agree.bind_same
    intro _
    exact .ok ⟨rfl, rfl, rfl, .nil, .nil, .nil, .nil⟩
  . apply (describeFields_agree r.name _ .nil).bind
    intro fields fields' hfields
    apply (describeConstructors_agree r.name 0 _).bind
    intro constructors constructors' hconstructors
    apply Agree.foldlM fun c c' m h => bindMethod_agree h m
    exact ⟨rfl, rfl, rfl, hfields, hconstructors, .nil, .nil⟩

end Record

end Facade
