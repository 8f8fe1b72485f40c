import Facade.Proofs.Outcome
import Facade.Record.Extract
import Mathlib.Tactic.Tauto

/-!
This module contains the proofs about what becomes of records: a description keeps the name of its
record, and every record of a batch is described or fails.
-/

namespace Facade.Record

open Host Outcome

variable {markers : Settings.Markers} {enums : List String}

def addGetter (property : String) (getter : HostClass.Method) (c : HostClass) : HostClass :=
  { c with
    fields := changeFirst (acceptsGetter property getter.returns)
      (fun f => { f with hasGetter := true }) c.fields
    getters := c.getters ++ [getter] }

def addSetter (property : String) (type : HostType) (setter : HostClass.Method) (c : HostClass) :
    HostClass :=
  { c with
    fields := changeFirst (acceptsSetter property type) (fun f => { f with hasSetter := true }) c.fields
    setters := c.setters ++ [setter] }

theorem map_changeFirst {α : Type} {g : HostClass.Field → α} {test : HostClass.Field → Bool}
    {change : HostClass.Field → HostClass.Field} (hchange : ∀ f, g (change f) = g f)
    (fields : List HostClass.Field) : (changeFirst test change fields).map g = fields.map g := by
  induction fields with
  | nil => rfl
  | cons f fields ih =>
    rw [changeFirst]
    split
    . rw [List.map_cons, List.map_cons, hchange]
    . rw [List.map_cons, List.map_cons, ih]

section

variable {c : HostClass} {property : String} {t type : HostType}

theorem mem_types_addGetter {g : HostClass.Method} (h : t ∈ (addGetter property g c).types) :
    t ∈ c.types ∨ t = g.returns := by
  dsimp only [HostClass.types, addGetter] at h ⊢
  rw [map_changeFirst] at h
  . simp only [List.map_append, List.map_cons, List.map_nil, List.mem_append,
      List.mem_singleton] at h ⊢
    tauto
  . exact fun _ => rfl

theorem mem_types_addSetter {s : HostClass.Method} (htakes : s.parameters = [type])
    (h : t ∈ (addSetter property type s c).types) : t ∈ c.types ∨ t = type := by
  dsimp only [HostClass.types, addSetter] at h ⊢
  rw [map_changeFirst] at h
  . simp only [List.flatMap_append, List.flatMap_cons, List.flatMap_nil, htakes, List.append_nil,
      List.mem_append, List.mem_singleton] at h ⊢
    tauto
  . exact fun _ => rfl

end

/-- What a class takes in with a getter: its type is read, its name is that of a property, and it is for
the first field that accepts it. -/
structure AddsGetter (markers : Settings.Markers) (enums : List String) (c : HostClass)
    (property : String) (getter : HostClass.Method) (c' : HostClass) : Prop where
  read : ∃ member source annotations,
    readDeclaredType markers enums member source annotations = .ok getter.returns
  named : getterProperty? getter.name getter.returns.isBoolean = some property
  field : getter.field =
    (c.fields.find? (acceptsGetter property getter.returns)).map HostClass.Field.name
  result : c' = addGetter property getter c

/-- What a class takes in with a setter: its type is read, its name is that of a property, and it is for
the first field that accepts it. -/
structure AddsSetter (markers : Settings.Markers) (enums : List String) (c : HostClass)
    (property : String) (type : HostType) (setter : HostClass.Method) (c' : HostClass) : Prop where
  read : ∃ member source annotations,
    readDeclaredType markers enums member source annotations = .ok type
  takes : setter.parameters = [type]
  returns : setter.returns = .void ∨
    ∃ member source, readType enums member source = .ok setter.returns
  named : setterProperty? setter.name = some property
  field : ∃ f, c.fields.find? (acceptsSetter property type) = some f ∧ setter.field = some f.name
  result : c' = addSetter property type setter c

theorem bindGetter_cases {c c' : HostClass} {m : Method}
    (h : bindGetter markers enums c m = .ok c') :
    c' = c ∨ ∃ property getter, AddsGetter markers enums c property getter c' := by
  rw [bindGetter, bind_eq_ok_iff] at h
  obtain ⟨type, htype, h⟩ := h
  split at h
  . cases h
    exact .inl rfl
  . next property hproperty =>
    rw [bind_eq_ok_iff] at h
    obtain ⟨throws, -, h⟩ := h
    cases h
    exact .inr ⟨property, ⟨m.name, [], type, throws, _⟩, ⟨_, _, _, htype⟩, hproperty, rfl, rfl⟩

theorem readReturnType_cases {member : String} {m : Method} {type : HostType}
    (h : readReturnType enums member m = .ok type) :
    type = .void ∨ ∃ member source, readType enums member source = .ok type := by
  unfold readReturnType at h
  split at h
  . exact .inl (Except.ok.inj h).symm
  . exact .inr ⟨_, _, h⟩

theorem bindSetter_cases {c c' : HostClass} {m : Method} {p : Parameter} {property : String}
    (hproperty : setterProperty? m.name = some property)
    (h : bindSetter markers enums c m p property = .ok c') :
    c' = c ∨ ∃ type setter, AddsSetter markers enums c property type setter c' := by
  rw [bindSetter, bind_eq_ok_iff] at h
  obtain ⟨type, htype, h⟩ := h
  dsimp only at h
  split at h
  . cases h
    exact .inl rfl
  . next field hfield =>
    rw [bind_eq_ok_iff] at h
    obtain ⟨returns, hreturns, h⟩ := h
    rw [bind_eq_ok_iff] at h
    obtain ⟨throws, -, h⟩ := h
    cases h
    exact .inr ⟨type, ⟨m.name, [type], returns, throws, _⟩, ⟨_, _, _, htype⟩, rfl,
      readReturnType_cases hreturns, hproperty, ⟨field, hfield, rfl⟩, rfl⟩

theorem bindMethod_cases {c c' : HostClass} {m : Method}
    (h : bindMethod markers enums c m = .ok c') :
    c' = c ∨ (∃ property getter, AddsGetter markers enums c property getter c') ∨
      ∃ property type setter, AddsSetter markers enums c property type setter c' := by
  unfold bindMethod at h
  split at h
  . exact (bindGetter_cases h).imp_right .inl
  . split at h
    . next p property _ hproperty =>
      obtain rfl | hadds := bindSetter_cases hproperty h
      . exact .inl rfl
      . exact .inr (.inr ⟨property, hadds⟩)
    . cases h
      exact .inl rfl

theorem bindMethod_of_returns {m : Method} (hparameters : m.parameters = []) (hvoid : m.isVoid = false)
    (c : HostClass) : bindMethod markers enums c m = bindGetter markers enums c m := by
  rw [bindMethod, hparameters, hvoid]
  rfl

theorem bindMethod_of_assigns {m : Method} {p : Parameter} {property : String}
    (hparameters : m.parameters = [p]) (hproperty : setterProperty? m.name = some property)
    (c : HostClass) : bindMethod markers enums c m = bindSetter markers enums c m p property := by
  rw [bindMethod, hparameters, hproperty]
  rfl

theorem bindMethod_of_neither {m : Method} (hreturns : m.parameters = [] → m.isVoid = true)
    (hassigns : ∀ p, m.parameters = [p] → setterProperty? m.name = none) (c : HostClass) :
    bindMethod markers enums c m = .ok c := by
  unfold bindMethod
  split
  . next hreads =>
    rw [Bool.and_eq_true, List.isEmpty_iff, Bool.not_eq_true'] at hreads
    rw [hreturns hreads.1] at hreads
    cases hreads.2
  . split
    . next p property hparameters hproperty =>
      rw [hassigns p hparameters] at hproperty
      cases hproperty
    . rfl

theorem bindMethod_name {c c' : HostClass} {m : Method}
    (h : bindMethod markers enums c m = .ok c') : c'.name = c.name := by
  obtain rfl | ⟨_, _, hadds⟩ | ⟨_, _, _, hadds⟩ := bindMethod_cases h
  . rfl
  . rw [hadds.result]
    rfl
  . rw [hadds.result]
    rfl

theorem foldlM_bindMethod_name {methods : List Method} {c c' : HostClass}
    (h : methods.foldlM (bindMethod markers enums) c = .ok c') : c'.name = c.name :=
  foldlM_invariant (fun _ _ _ hname hstep => (bindMethod_name hstep).trans hname) rfl h

/-- Either an enumeration is described with its constants, or a class with its fields and constructors,
which takes in its methods. -/
theorem describe_cases {r : Record} {c : HostClass} (h : describe markers enums r = .ok c) :
    (r.isEnum = true ∧ c = .enumeration r.name r.constants) ∨
      r.isEnum = false ∧ ∃ fields constructors,
        describeFields markers enums r.name [] (r.fields.filter fun f => !f.isStatic) = .ok fields ∧
        describeConstructors markers enums r.name 0 r.publicConstructors = .ok constructors ∧
        r.publicMethods.foldlM (bindMethod markers enums)
          { HostClass.plain r.name with fields, constructors } = .ok c := by
  obtain ⟨-, -, h⟩ := bind_eq_ok_iff.mp h
  split at h
  . next henum =>
    obtain ⟨-, -, h⟩ := bind_eq_ok_iff.mp h
    cases h
    exact .inl ⟨henum, rfl⟩
  . next hclass =>
    obtain ⟨fields, hfields, h⟩ := bind_eq_ok_iff.mp h
    obtain ⟨constructors, hconstructors, h⟩ := bind_eq_ok_iff.mp h
    exact .inr ⟨eq_false_of_ne_true hclass, fields, constructors, hfields, hconstructors, h⟩

theorem describe_name {r : Record} {c : HostClass} (h : describe markers enums r = .ok c) :
    c.name = r.name := by
  obtain ⟨-, rfl⟩ | ⟨-, fields, constructors, -, -, hmethods⟩ := describe_cases h
  . rfl
  . exact foldlM_bindMethod_name hmethods

theorem isEnum_of_describe {r : Record} {c : HostClass} (h : describe markers enums r = .ok c)
    (hclass : c.isEnum = false) : r.isEnum = false := by
  obtain ⟨-, rfl⟩ | ⟨hr, -⟩ := describe_cases h
  . cases hclass
  . exact hr

theorem describeAll_cons (markers : Settings.Markers) (enums seen : List String) (r : Record)
    (rs : List Record) :
    let rest := describeAll markers enums (r.name :: seen) rs
    (∃ c : HostClass, c.name = r.name ∧ r.name ∉ seen ∧
      describeAll markers enums seen (r :: rs) = { rest with classes := c :: rest.classes }) ∨
    (∃ refusal, describeAll markers enums seen (r :: rs) =
      { rest with failures := ⟨r.name, refusal⟩ :: rest.failures }) := by
  intro rest
  by_cases hseen : r.name ∈ seen
  . right
    refine ⟨.flawed r.name .repeatedRecord, ?_⟩
    rw [describeAll, if_pos (List.contains_iff_mem.mpr hseen)]
    rfl
  . have hcontains : ¬ seen.contains r.name = true := by simpa using hseen
    cases hdescribe : describe markers enums r with
    | ok c =>
      left
      refine ⟨c, describe_name hdescribe, hseen, ?_⟩
      rw [describeAll, if_neg hcontains, hdescribe]
      rfl
    | error refusal =>
      right
      refine ⟨refusal, ?_⟩
      rw [describeAll, if_neg hcontains, hdescribe]
      rfl

/-- Every record is described or fails, and never both. -/
theorem describeAll_perm (markers : Settings.Markers) (enums seen : List String)
    (records : List Record) :
    ((describeAll markers enums seen records).classes.map HostClass.name ++
        (describeAll markers enums seen records).failures.map Failure.className).Perm
      (records.map Record.name) := by
  induction records generalizing seen with
  | nil => exact List.Perm.refl _
  | cons r rs ih =>
    have hrest := ih (r.name :: seen)
    obtain ⟨c, hname, -, heq⟩ | ⟨refusal, heq⟩ := describeAll_cons markers enums seen r rs
    . rw [heq]
      simp only [List.map_cons, List.cons_append, hname]
      exact hrest.cons r.name
    . rw [heq]
      simp only [List.map_cons]
      exact List.perm_middle.trans (hrest.cons r.name)

/-- The described classes come in the order of their first records. -/
theorem describeAll_sublist (markers : Settings.Markers) (enums seen : List String)
    (records : List Record) :
    ((describeAll markers enums seen records).classes.map HostClass.name).Sublist
      ((records.map Record.name).filter fun name => !seen.contains name).eraseDups := by
  induction records generalizing seen with
  | nil => exact List.Sublist.refl _
  | cons r rs ih =>
    have hrest := ih (r.name :: seen)
    have hfilter : (rs.map Record.name).filter (fun name => !(r.name :: seen).contains name) =
        ((rs.map Record.name).filter fun name => !seen.contains name).filter
          fun name => !name == r.name := by
      rw [List.filter_filter]
      apply List.filter_congr
      intro name _
      rw [List.contains_cons, Bool.not_or]
    rw [List.map_cons, List.filter_cons]
    split
    . rw [List.eraseDups_cons, ← hfilter]
      obtain ⟨c, hname, -, heq⟩ | ⟨refusal, heq⟩ := describeAll_cons markers enums seen r rs
      . rw [heq, List.map_cons, hname]
        exact hrest.cons_cons r.name
      . rw [heq]
        exact hrest.cons r.name
    -- the name is filtered out already, and its record is a repetition
    . next hseen =>
      have hmem : r.name ∈ seen := by simpa using hseen
      have hsame : (rs.map Record.name).filter (fun name => !(r.name :: seen).contains name) =
          (rs.map Record.name).filter fun name => !seen.contains name := by
        apply List.filter_congr
        intro name _
        by_cases heq : name = r.name
        . simp [heq, hmem]
        . simp [heq]
      obtain ⟨c, -, hfresh, -⟩ | ⟨refusal, heq⟩ := describeAll_cons markers enums seen r rs
      . exact absurd hmem hfresh
      . rw [heq, ← hsame]
        exact hrest

theorem describeAll_nodup (markers : Settings.Markers) (enums seen : List String)
    (records : List Record) :
    ((describeAll markers enums seen records).classes.map HostClass.name).Nodup ∧
      ∀ name ∈ (describeAll markers enums seen records).classes.map HostClass.name,
        name ∉ seen := by
  induction records generalizing seen with
  | nil => exact ⟨List.nodup_nil, by simp [describeAll]⟩
  | cons r rs ih =>
    obtain ⟨hnodup, hnew⟩ := ih (r.name :: seen)
    have hseen := fun name hname => List.not_mem_of_not_mem_cons (hnew name hname)
    obtain ⟨c, hname, hfresh, heq⟩ | ⟨refusal, heq⟩ := describeAll_cons markers enums seen r rs
    . rw [heq]
      simp only [List.map_cons, hname]
      constructor
      . rw [List.nodup_cons]
        exact ⟨fun hmem => hnew r.name hmem List.mem_cons_self, hnodup⟩
      . intro name hmem
        obtain rfl | hmem := List.mem_cons.mp hmem
        . exact hfresh
        . exact hseen name hmem
    . rw [heq]
      exact ⟨hnodup, hseen⟩

end Facade.Record
