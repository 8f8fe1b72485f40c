import Facade.Proofs.Extraction

/-!
This module contains the proofs about methods that are not named for a property. They add nothing to a
class. They can be deleted from its record, unless the class is not described because of one of them: it
takes nothing, and what it returns is not read as a type.
-/

namespace Facade.Record

open Host Outcome Settings

variable {markers : Markers} {enums : List String}

theorem getterProperty?_eq_none {name : String} (h : getterProperty? name true = none)
    (isBoolean : Bool) : getterProperty? name isBoolean = none := by
  cases isBoolean with
  | true => exact h
  | false =>
    unfold getterProperty? getterRest? at h ⊢
    split at h
    . next hclass => rw [if_pos hclass]
    . next hclass =>
      rw [if_neg hclass]
      split
      . next rest hrest => rwa [hrest] at h
      . rfl

/-- A method that is not named for a property adds nothing. Still, what it returns may have to be a
type. -/
theorem bindMethod_of_other {m : Method} (hgetter : getterProperty? m.name true = none)
    (hsetter : setterProperty? m.name = none) (c : HostClass) :
    bindMethod markers enums c m =
      if m.parameters.isEmpty && !m.isVoid then
        (readType enums (methodName c.name m.name) m.returns).map fun _ => c
      else .ok c := by
  split
  . next hreads =>
    rw [Bool.and_eq_true, List.isEmpty_iff, Bool.not_eq_true'] at hreads
    rw [bindMethod_of_returns hreads.1 hreads.2]
    dsimp only [bindGetter, readDeclaredType]
    cases readType enums (methodName c.name m.name) m.returns with
    | error refusal => rfl
    | ok type =>
      simp only [pure_eq_ok, ok_bind, getterProperty?_eq_none hgetter]
      rfl
  . next hreads =>
    rw [Bool.and_eq_true, List.isEmpty_iff, Bool.not_eq_true'] at hreads
    refine bindMethod_of_neither (fun hparameters => ?_) (fun _ _ => hsetter) c
    rw [← Bool.not_eq_false]
    exact fun hvoid => hreads ⟨hparameters, hvoid⟩

/-- A method that takes nothing stops the description of its class if what it returns is not read as a
type, even if it is not named for a property. -/
theorem bindMethod_of_unread {m : Method} (hgetter : getterProperty? m.name true = none)
    (hsetter : setterProperty? m.name = none) (hparameters : m.parameters = []) (hvoid : m.isVoid = false)
    {c : HostClass} {refusal : Refusal}
    (hread : readType enums (methodName c.name m.name) m.returns = .error refusal) :
    bindMethod markers enums c m = .error refusal := by
  have hreads : (m.parameters.isEmpty && !m.isVoid) = true := by
    rw [hparameters, hvoid]
    rfl
  rw [bindMethod_of_other hgetter hsetter, if_pos hreads, hread]
  rfl

/-- A method that is not named for a property makes no difference if it is not asked for a type, or has
one. -/
theorem foldlM_cons_of_readable {m : Method} (hgetter : getterProperty? m.name true = none)
    (hsetter : setterProperty? m.name = none) (c : HostClass) (rest : List Method)
    (h : isOpen m.modifiers = true → m.parameters = [] → m.isVoid = false →
      ∃ type, readType enums (methodName c.name m.name) m.returns = .ok type) :
    ((m :: rest).filter fun m => isOpen m.modifiers).foldlM (bindMethod markers enums) c =
      (rest.filter fun m => isOpen m.modifiers).foldlM (bindMethod markers enums) c := by
  rw [List.filter_cons]
  split
  . next hopen =>
    have hstep : bindMethod markers enums c m = .ok c := by
      rw [bindMethod_of_other hgetter hsetter]
      split
      . next hreads =>
        rw [Bool.and_eq_true, List.isEmpty_iff, Bool.not_eq_true'] at hreads
        obtain ⟨type, htype⟩ := h hopen hreads.1 hreads.2
        rw [htype]
        rfl
      . rfl
    rw [List.foldlM_cons, hstep, ok_bind]
  . rfl

theorem describe_append {r : Record} (hclass : r.isEnum = false) (first rest : List Method) :
    describe markers enums { r with methods := first ++ rest } =
      describe markers enums { r with methods := first } >>= fun c =>
        (rest.filter fun m => isOpen m.modifiers).foldlM (bindMethod markers enums) c := by
  rw [isEnum] at hclass
  simp only [describe, isEnum, hclass, Bool.false_eq_true, if_false, publicMethods, publicConstructors,
    List.filter_append, List.foldlM_append, bind_assoc]

theorem describe_of_isEnum {r : Record} (henum : r.isEnum = true) (methods : List Method) :
    describe markers enums { r with methods } = describe markers enums r := by
  rw [isEnum] at henum
  simp only [describe, isEnum, henum, if_true, describeEnum]

/-- Whether a class is not described because of a method that is not named for a property, behind other
methods of its record. -/
structure Method.Stops (markers : Markers) (enums : List String) (r : Record) (before : List Method)
    (m : Method) (refusal : Refusal) : Prop where
  isEnum : r.isEnum = false
  /-- The class is described up to the method. -/
  described : ∃ c, describe markers enums { r with methods := before } = .ok c
  isOpen : Record.isOpen m.modifiers = true
  parameters : m.parameters = []
  isVoid : m.isVoid = false
  /-- What the method returns is not read as a type. -/
  returns : readType enums (methodName r.name m.name) m.returns = .error refusal

/-- A method that is not named for a property can be deleted, unless its class is not described because
of it. -/
theorem describe_delete {r : Record} {before after : List Method} {m : Method}
    (hmethods : r.methods = before ++ m :: after) (hgetter : getterProperty? m.name true = none)
    (hsetter : setterProperty? m.name = none) :
    ((∀ refusal, ¬ m.Stops markers enums r before refusal) →
      describe markers enums { r with methods := before ++ after } = describe markers enums r) ∧
    ∀ refusal, m.Stops markers enums r before refusal → describe markers enums r = .error refusal := by
  have hr : describe markers enums r =
      describe markers enums { r with methods := before ++ m :: after } := by rw [← hmethods]
  rw [hr]
  cases henum : r.isEnum with
  | true =>
    constructor
    . intro _
      rw [describe_of_isEnum henum, ← hr]
    . intro refusal hstops
      rw [hstops.isEnum] at henum
      cases henum
  | false =>
    rw [describe_append henum, describe_append henum]
    cases hdescribed : describe markers enums { r with methods := before } with
    -- the methods before `m` already stop the record, with or without `m`
    | error earlier =>
      constructor
      . exact fun _ => rfl
      . intro refusal hstops
        obtain ⟨c, hc⟩ := hstops.described
        rw [hdescribed] at hc
        cases hc
    | ok c =>
      have hname : c.name = r.name := describe_name (r := { r with methods := before }) hdescribed
      rw [ok_bind, ok_bind]
      constructor
      . intro hnone
        refine (foldlM_cons_of_readable hgetter hsetter c after ?_).symm
        intro hopen hparameters hvoid
        rw [hname]
        cases hread : readType enums (methodName r.name m.name) m.returns with
        | ok type => exact ⟨type, rfl⟩
        | error refusal =>
          have hstops : m.Stops markers enums r before refusal :=
            ⟨henum, ⟨c, hdescribed⟩, hopen, hparameters, hvoid, hread⟩
          exact absurd hstops (hnone refusal)
      . intro refusal hstops
        have hread := hstops.returns
        rw [← hname] at hread
        rw [List.filter_cons, if_pos hstops.isOpen, List.foldlM_cons,
          bindMethod_of_unread hgetter hsetter hstops.parameters hstops.isVoid hread]
        rfl

def bagRecord (methods : List Method) : Record :=
  {
    name := "p.Bag", kind := .class, constants := [], modifiers := [.public]
    fields := [⟨"size", "int", [.private], []⟩], constructors := [], methods
  }

def sizeMethod : Method :=
  ⟨"getSize", "int", [], [], [], [.public]⟩

def streamMethod (returns : String) : Method :=
  ⟨"stream", returns, [], [], [], [.public]⟩

theorem describe_delete_stream :
    describe .standard [] (bagRecord [sizeMethod]) =
      describe .standard [] (bagRecord [streamMethod "java.util.stream.Stream<p.Item>", sizeMethod]) ∧
    describe .standard [] (bagRecord [sizeMethod, streamMethod "java.util.stream.Stream<?>"]) =
      .error (.flawed "p.Bag.stream()" (.badType "java.util.stream.Stream<?>" .unbounded)) := by
  have hgetter : getterProperty? "stream" true = none := by decide
  have hsetter : setterProperty? "stream" = none := by decide
  have hfirst : ∀ returns, (bagRecord [streamMethod returns, sizeMethod]).methods =
      [] ++ streamMethod returns :: [sizeMethod] := fun _ => rfl
  have hlast : ∀ returns, (bagRecord [sizeMethod, streamMethod returns]).methods =
      [sizeMethod] ++ streamMethod returns :: [] := fun _ => rfl
  constructor
  . refine (describe_delete (hfirst _) hgetter hsetter).1 ?_
    intro refusal hstops
    cases hstops.returns
  . exact (describe_delete (hlast _) hgetter hsetter).2 _ ⟨rfl, ⟨_, rfl⟩, rfl, rfl, rfl, rfl⟩

/-- A method that is not named for a property, and may not be deleted: its class is described without
it only. -/
theorem stream_not_deletable :
    getterProperty? "stream" true = none ∧ setterProperty? "stream" = none ∧
      (∃ c, describe .standard [] (bagRecord [sizeMethod]) = .ok c) ∧
      describe .standard [] (bagRecord [sizeMethod, streamMethod "java.util.stream.Stream<?>"]) ≠
        describe .standard [] (bagRecord [sizeMethod]) := by
  refine ⟨by decide, by decide, ⟨_, rfl⟩, ?_⟩
  intro h
  cases h

end Facade.Record
