import Facade.Proofs.Binding.Description
import Facade.Proofs.Extraction
import Mathlib.Data.List.Nodup

/-!
This module contains the proofs about the binding of methods: a class holds the members of its record,
with every method that reads or assigns a field bound to it, the first one that does so. Methods are
taken in one after another, and what holds of the class after some of them is `Bound`.
-/

namespace Facade.Record

open Host Outcome Settings Matching

variable {markers : Markers} {enums : List String}

/-- Whether the methods of a class that are bound to fields describe the first ones for each field. -/
def Serves (accepts : Field → Method → Bool) (describedBy : Method → HostClass.Method → Prop)
    (fields : List Field) (items : List Method) (methods : List HostClass.Method) : Prop :=
  ∀ f ∈ fields,
    Option.Rel describedBy (items.find? (accepts f)) (methods.find? (·.field == some f.name))

/-- Whether a field of a class describes a field, and tells which methods among some are for it. -/
structure Field.BoundAmong (markers : Markers) (enums : List String) (done : List Method)
    (f : Field) (g : HostClass.Field) : Prop where
  described : f.DescribedBy markers enums g
  hasGetter : g.hasGetter = ((readersAmong enums done).find? (f.isReadBy enums)).isSome
  hasSetter : g.hasSetter = (done.find? (f.isAssignedBy enums)).isSome

/-- What holds of a class with the fields `fs` after some of the methods. -/
structure Bound (markers : Markers) (enums : List String) (className : String) (fs : List Field)
    (constructors : List HostClass.Constructor) (done : List Method) (c : HostClass) : Prop where
  name : c.name = className
  isEnum : c.isEnum = false
  constructors : c.constructors = constructors
  fields : List.Forall₂ (Field.BoundAmong markers enums done) fs c.fields
  getters : Serves (Field.isReadBy enums) (Method.GetterDescribedBy markers enums className) fs
    (readersAmong enums done) c.getters
  computed : List.Forall₂ (Method.GetterDescribedBy markers enums className)
    (leftover (Field.isReadBy enums) fs (readersAmong enums done)) c.computed
  setters : Serves (Field.isAssignedBy enums) (Method.SetterDescribedBy markers enums className) fs
    done c.setters

theorem forall₂_changeFirst {R S : Field → HostClass.Field → Prop} {fields : List Field}
    {gs : List HostClass.Field} {p : Field → Bool} {test : HostClass.Field → Bool}
    {change : HostClass.Field → HostClass.Field} (h : List.Forall₂ R fields gs)
    (hexclusive : fields.Pairwise fun f f' => p f = true → p f' = false)
    (htest : ∀ f g, R f g → p f = test g)
    (hchange : ∀ f g, R f g → p f = true → S f (change g))
    (hkeep : ∀ f g, R f g → p f = false → S f g) :
    List.Forall₂ S fields (changeFirst test change gs) := by
  induction h with
  | nil => exact .nil
  | @cons f g fields gs hfg hrest ih =>
    obtain ⟨hothers, hexclusive⟩ := List.pairwise_cons.mp hexclusive
    rw [changeFirst, ← htest f g hfg]
    cases hp : p f with
    | true =>
      refine .cons (hchange f g hfg hp) ?_
      -- the change ends here, and no later field satisfies the test
      have hnone : ∀ f' ∈ fields, p f' = false := fun f' hf' => hothers f' hf' hp
      apply ((List.forall₂_and_left _ _).mpr ⟨hnone, hrest⟩).imp
      rintro f' g' ⟨hf', hfg'⟩
      exact hkeep f' g' hfg' hf'
    | false => exact .cons (hkeep f g hfg hp) (ih hexclusive)

theorem changeFirst_eq_self {fields : List HostClass.Field} {test : HostClass.Field → Bool}
    {change : HostClass.Field → HostClass.Field} (h : fields.find? test = none) :
    changeFirst test change fields = fields := by
  induction fields with
  | nil => rfl
  | cons f fields ih =>
    have htest := List.find?_eq_none.mp h
    rw [changeFirst, if_neg (htest f List.mem_cons_self), ih]
    exact List.find?_eq_none.mpr fun g hg => htest g (List.mem_cons_of_mem _ hg)

section

variable {accepts : Field → Method → Bool} {describedBy : Method → HostClass.Method → Prop}
variable {fields : List Field} {items : List Method} {methods : List HostClass.Method} {m : Method}

theorem Serves.concat (h : Serves accepts describedBy fields items methods)
    {added : List HostClass.Method}
    (hadded : ∀ f ∈ fields, items.find? (accepts f) = none →
      Option.Rel describedBy ([m].find? (accepts f)) (added.find? (·.field == some f.name))) :
    Serves accepts describedBy fields (items ++ [m]) (methods ++ added) := by
  intro f hf
  have hfirst := h f hf
  rw [List.find?_append, List.find?_append]
  generalize hitems : items.find? (accepts f) = first,
    methods.find? (·.field == some f.name) = bound at hfirst ⊢
  cases hfirst with
  | some hbound => exact .some hbound
  | none => exact hadded f hf hitems

theorem Serves.exists_of_isSome (h : Serves accepts describedBy fields items methods) {f : Field}
    (hf : f ∈ fields) (hsome : (items.find? (accepts f)).isSome = true) :
    ∃ m d, methods.find? (·.field == some f.name) = some d ∧ describedBy m d := by
  have hrel := h f hf
  generalize items.find? (accepts f) = first,
    methods.find? (·.field == some f.name) = found at hrel hsome ⊢
  cases hrel with
  | some hmd => exact ⟨_, _, rfl, hmd⟩
  | none => cases hsome

theorem Serves.exists_of_find? (h : Serves accepts describedBy fields items methods) {f : Field}
    (hf : f ∈ fields) {d : HostClass.Method}
    (hd : methods.find? (·.field == some f.name) = some d) :
    ∃ m, accepts f m = true ∧ describedBy m d := by
  have hrel := h f hf
  rw [hd] at hrel
  generalize hfirst : items.find? (accepts f) = first at hrel
  cases hrel with
  | some hmd => exact ⟨_, List.find?_some hfirst, hmd⟩

theorem rel_of_taker? (hnames : (fields.map Field.name).Nodup) (hexclusive : Exclusive accepts fields)
    {method : HostClass.Method} (hmethod : describedBy m method)
    (hfield : method.field = (taker? accepts fields items m).map Field.name) :
    ∀ f ∈ fields, items.find? (accepts f) = none →
      Option.Rel describedBy ([m].find? (accepts f)) ([method].find? (·.field == some f.name)) := by
  intro f hf hnone
  have htaker : taker? accepts fields items m = some f ↔
      accepts f m = true ∧ items.find? (accepts f) = none := taker?_eq_some_iff hexclusive hf
  cases hm : accepts f m with
  | true =>
    rw [htaker.mpr ⟨hm, hnone⟩] at hfield
    rw [List.find?_cons_of_pos hm, List.find?_cons_of_pos (by simp [hfield])]
    exact .some hmethod
  | false =>
    have hother : method.field ≠ some f.name := by
      rw [hfield]
      intro hname
      obtain ⟨f', htaken, hname⟩ := Option.map_eq_some_iff.mp hname
      have heq := List.inj_on_of_nodup_map hnames (List.mem_of_find?_eq_some htaken) hf hname
      rw [heq, htaker, hm] at htaken
      cases htaken.1
    rw [List.find?_cons_of_neg (by simp [hm]), List.find?_cons_of_neg (by simpa using hother)]
    exact .none

theorem rel_of_taker?_eq_none (htaker : taker? accepts fields items m = none) :
    ∀ f ∈ fields, items.find? (accepts f) = none →
      Option.Rel describedBy ([m].find? (accepts f))
        (([] : List HostClass.Method).find? (·.field == some f.name)) := by
  intro f hf hnone
  have hm : accepts f m = false := by simpa [hnone] using List.find?_eq_none.mp htaker f hf
  rw [List.find?_cons_of_neg (by simp [hm])]
  exact .none

theorem isSome_find?_concat (f : Field) :
    ((items ++ [m]).find? (accepts f)).isSome =
      ((accepts f m && (items.find? (accepts f)).isNone) || (items.find? (accepts f)).isSome) := by
  rw [List.find?_append]
  cases items.find? (accepts f) <;> cases hm : accepts f m <;> simp [hm]

theorem pairwise_taken (hexclusive : Exclusive accepts fields) :
    fields.Pairwise fun f f' =>
      (accepts f m && (items.find? (accepts f)).isNone) = true →
        (accepts f' m && (items.find? (accepts f')).isNone) = false := by
  apply hexclusive.imp
  intro f f' hff' hf
  rw [hff' m (Bool.and_eq_true_iff.mp hf).1, Bool.false_and]

end

section

variable {className : String} {fs : List Field} {constructors : List HostClass.Constructor}
variable {done : List Method} {c c' : HostClass} {m : Method}

theorem find?_isAssignedBy_concat (done : List Method) (hassigned : m.assigned? enums = none)
    (f : Field) :
    (done ++ [m]).find? (f.isAssignedBy enums) = done.find? (f.isAssignedBy enums) := by
  simp [List.find?_append, Field.isAssignedBy_eq_false hassigned]

theorem readersAmong_concat_of_eq_none (done : List Method) (hread : m.read? enums = none) :
    readersAmong enums (done ++ [m]) = readersAmong enums done := by
  simp [readersAmong_concat, hread]

theorem Bound.skip (h : Bound markers enums className fs constructors done c)
    (hread : m.read? enums = none) (hassigned : m.assigned? enums = none) :
    Bound markers enums className fs constructors (done ++ [m]) c := by
  have hreaders := readersAmong_concat_of_eq_none done hread
  have hassigners := find?_isAssignedBy_concat done hassigned
  constructor
  . exact h.name
  . exact h.isEnum
  . exact h.constructors
  . apply h.fields.imp
    rintro f g ⟨hfg, hgetter, hsetter⟩
    exact ⟨hfg, by rw [hreaders, hgetter], by rw [hassigners, hsetter]⟩
  . rw [hreaders]
    exact h.getters
  . rw [hreaders]
    exact h.computed
  . intro f hf
    rw [hassigners]
    exact h.setters f hf

theorem readersAmong_concat_of_eq_some (done : List Method) {read : String × HostType}
    (hread : m.read? enums = some read) :
    readersAmong enums (done ++ [m]) = readersAmong enums done ++ [m] := by
  simp [readersAmong_concat, hread]

/-- A field of the class accepts a getter if its field does and has no earlier one. -/
theorem Field.BoundAmong.acceptsGetter_eq {f : Field} {g : HostClass.Field}
    (h : f.BoundAmong markers enums done g) {property : String} {plain : HostType}
    (hread : m.read? enums = some (property, plain)) (nullable : Bool) :
    (f.isReadBy enums m && ((readersAmong enums done).find? (f.isReadBy enums)).isNone) =
      acceptsGetter property (plain.withNullable nullable) g := by
  rw [h.described.acceptsGetter_eq, h.hasGetter, Field.isReadBy, hread, Option.any_some,
    Option.not_isSome]

theorem Bound.find?_acceptsGetter (h : Bound markers enums className fs constructors done c)
    {property : String} {plain : HostType} (hread : m.read? enums = some (property, plain))
    (nullable : Bool) :
    (c.fields.find? (acceptsGetter property (plain.withNullable nullable))).map HostClass.Field.name =
      (taker? (Field.isReadBy enums) fs (readersAmong enums done) m).map Field.name :=
  map_eq_of_rel (rel_find? h.fields fun _ _ hfg => hfg.acceptsGetter_eq hread nullable)
    fun _ _ hfg => hfg.described.name

theorem Bound.fields_concat_getter (hnames : (fs.map Field.name).Nodup)
    (h : Bound markers enums className fs constructors done c) {property : String}
    {plain : HostType} (hread : m.read? enums = some (property, plain))
    (hassigned : m.assigned? enums = none) (nullable : Bool) :
    List.Forall₂ (Field.BoundAmong markers enums (done ++ [m])) fs
      (changeFirst (acceptsGetter property (plain.withNullable nullable))
        (fun g => { g with hasGetter := true }) c.fields) := by
  have hreaders := readersAmong_concat_of_eq_some done hread
  have hassigners := find?_isAssignedBy_concat done hassigned
  have hexclusive : Exclusive (Field.isReadBy enums) fs := exclusive_hasProperty hnames _
  apply forall₂_changeFirst h.fields (pairwise_taken hexclusive)
    fun f g hfg => hfg.acceptsGetter_eq hread nullable
  . rintro f g ⟨hfg, -, hsetter⟩ htaken
    exact ⟨⟨hfg.name, hfg.isFinal, hfg.type⟩,
      by rw [hreaders, isSome_find?_concat, htaken, Bool.true_or], by rw [hassigners, hsetter]⟩
  . rintro f g ⟨hfg, hgetter, hsetter⟩ htaken
    exact ⟨hfg, by rw [hreaders, isSome_find?_concat, htaken, hgetter, Bool.false_or],
      by rw [hassigners, hsetter]⟩

/-- A getter is bound to the field that gets it. -/
theorem Bound.bindGetter (hnames : (fs.map Field.name).Nodup)
    (h : Bound markers enums className fs constructors done c) (hempty : m.parameters = [])
    (hvoid : m.isVoid = false) (hstep : bindGetter markers enums c m = .ok c') :
    Bound markers enums className fs constructors (done ++ [m]) c' := by
  have hassigned : m.assigned? enums = none := by rw [Method.assigned?, hempty]
  rw [Record.bindGetter, bind_eq_ok_iff] at hstep
  obtain ⟨type, htype, hstep⟩ := hstep
  obtain ⟨plain, hplain, rfl⟩ := readDeclaredType_eq_ok_iff.mp htype
  have hread : m.read? enums =
      (getterProperty? m.name plain.isBoolean).map fun property => (property, plain) := by
    rw [Method.read?, hempty, hvoid, hplain]
    rfl
  split at hstep
  . next hproperty =>
    cases hstep
    apply h.skip _ hassigned
    rw [hread]
    exact Option.map_eq_none_iff.mpr hproperty
  . next property hproperty =>
    rw [bind_eq_ok_iff] at hstep
    obtain ⟨throws, hthrows, hstep⟩ := hstep
    cases hstep
    replace hread : m.read? enums = some (property, plain) := by
      rw [hread]
      exact Option.map_eq_some_iff.mpr ⟨property, hproperty, rfl⟩
    have hreaders := readersAmong_concat_of_eq_some done hread
    have hexclusive : Exclusive (Field.isReadBy enums) fs := exclusive_hasProperty hnames _
    rw [h.name] at hthrows
    rw [h.find?_acceptsGetter hread]
    have hmethod : ∀ field, m.GetterDescribedBy markers enums className
        ⟨m.name, [], plain.withNullable (!markers.saysPresent m.annotations), throws, field⟩ :=
      fun _ => ⟨rfl, ⟨plain, hplain, rfl⟩, hthrows⟩
    refine ⟨h.name, h.isEnum, h.constructors, h.fields_concat_getter hnames hread hassigned _, ?_,
      ?_, ?_⟩
    . rw [hreaders]
      exact h.getters.concat (rel_of_taker? hnames hexclusive (hmethod _) rfl)
    . -- a method that no field gets is left over
      rw [hreaders, leftover_concat hexclusive, HostClass.computed, List.filter_append]
      apply List.rel_append h.computed
      cases taker? (Field.isReadBy enums) fs (readersAmong enums done) m with
      | some f => exact .nil
      | none => exact .cons (hmethod none) .nil
    . intro f hf
      rw [find?_isAssignedBy_concat done hassigned]
      exact h.setters f hf

theorem Field.BoundAmong.acceptsSetter_eq {f : Field} {g : HostClass.Field}
    (h : f.BoundAmong markers enums done g) {property : String} {plain : HostType}
    (hassigned : m.assigned? enums = some (property, plain)) (nullable : Bool) :
    (f.isAssignedBy enums m && (done.find? (f.isAssignedBy enums)).isNone) =
      acceptsSetter property (plain.withNullable nullable) g := by
  rw [h.described.acceptsSetter_eq, h.hasSetter, Field.isAssignedBy, hassigned, Option.any_some,
    Option.not_isSome]

theorem Bound.find?_acceptsSetter (h : Bound markers enums className fs constructors done c)
    {property : String} {plain : HostType} (hassigned : m.assigned? enums = some (property, plain))
    (nullable : Bool) :
    (c.fields.find? (acceptsSetter property (plain.withNullable nullable))).map HostClass.Field.name =
      (taker? (Field.isAssignedBy enums) fs done m).map Field.name :=
  map_eq_of_rel (rel_find? h.fields fun _ _ hfg => hfg.acceptsSetter_eq hassigned nullable)
    fun _ _ hfg => hfg.described.name

theorem Bound.fields_concat_setter (hnames : (fs.map Field.name).Nodup)
    (h : Bound markers enums className fs constructors done c) {property : String}
    {plain : HostType} (hread : m.read? enums = none)
    (hassigned : m.assigned? enums = some (property, plain)) (nullable : Bool) :
    List.Forall₂ (Field.BoundAmong markers enums (done ++ [m])) fs
      (changeFirst (acceptsSetter property (plain.withNullable nullable))
        (fun g => { g with hasSetter := true }) c.fields) := by
  have hreaders := readersAmong_concat_of_eq_none done hread
  have hexclusive : Exclusive (Field.isAssignedBy enums) fs := exclusive_hasProperty hnames _
  apply forall₂_changeFirst h.fields (pairwise_taken hexclusive)
    fun f g hfg => hfg.acceptsSetter_eq hassigned nullable
  . rintro f g ⟨hfg, hgetter, -⟩ htaken
    exact ⟨⟨hfg.name, hfg.isFinal, hfg.type⟩, by rw [hreaders, hgetter],
      by rw [isSome_find?_concat, htaken, Bool.true_or]⟩
  . rintro f g ⟨hfg, hgetter, hsetter⟩ htaken
    exact ⟨hfg, by rw [hreaders, hgetter],
      by rw [isSome_find?_concat, htaken, hsetter, Bool.false_or]⟩

/-- A setter is bound to the field that gets it, and dropped if there is none. -/
theorem Bound.bindSetter (hnames : (fs.map Field.name).Nodup)
    (h : Bound markers enums className fs constructors done c) {p : Parameter} {property : String}
    (hparameters : m.parameters = [p]) (hproperty : setterProperty? m.name = some property)
    (hstep : bindSetter markers enums c m p property = .ok c') :
    Bound markers enums className fs constructors (done ++ [m]) c' := by
  rw [Record.bindSetter, bind_eq_ok_iff] at hstep
  obtain ⟨type, htype, hstep⟩ := hstep
  obtain ⟨plain, hplain, rfl⟩ := readDeclaredType_eq_ok_iff.mp htype
  have hread : m.read? enums = none := by simp [Method.read?, hparameters]
  have hassigned : m.assigned? enums = some (property, plain) := by
    simp [Method.assigned?, hparameters, hproperty, hplain]
  have hreaders := readersAmong_concat_of_eq_none done hread
  have hfield := h.find?_acceptsSetter hassigned (!markers.saysPresent p.annotations)
  have hfields := h.fields_concat_setter hnames hread hassigned (!markers.saysPresent p.annotations)
  dsimp only at hstep
  split at hstep
  . next hnone =>
    -- no field gets the method, and nothing is left of it
    cases hstep
    rw [hnone, Option.map_none, eq_comm, Option.map_eq_none_iff] at hfield
    rw [changeFirst_eq_self hnone] at hfields
    refine ⟨h.name, h.isEnum, h.constructors, hfields, ?_, ?_, ?_⟩
    . rw [hreaders]
      exact h.getters
    . rw [hreaders]
      exact h.computed
    . simpa only [List.append_nil] using h.setters.concat (rel_of_taker?_eq_none hfield)
  . next field hsome =>
    obtain ⟨returns, -, hstep⟩ := bind_eq_ok_iff.mp hstep
    obtain ⟨throws, hthrows, hstep⟩ := bind_eq_ok_iff.mp hstep
    cases hstep
    rw [h.name] at hthrows
    rw [hsome] at hfield
    refine ⟨h.name, h.isEnum, h.constructors, hfields, ?_, ?_, ?_⟩
    . rw [hreaders]
      exact h.getters
    . rw [hreaders]
      exact h.computed
    . exact h.setters.concat (rel_of_taker? hnames (exclusive_hasProperty hnames _)
        ⟨rfl, ⟨p, plain, hparameters, hplain, rfl⟩, hthrows⟩ hfield)

theorem Bound.bindMethod (hnames : (fs.map Field.name).Nodup)
    (h : Bound markers enums className fs constructors done c)
    (hstep : bindMethod markers enums c m = .ok c') :
    Bound markers enums className fs constructors (done ++ [m]) c' := by
  unfold Record.bindMethod at hstep
  split at hstep
  . next hreads =>
    rw [Bool.and_eq_true, List.isEmpty_iff, Bool.not_eq_true'] at hreads
    exact h.bindGetter hnames hreads.1 hreads.2 hstep
  . next hreads =>
    have hread : m.read? enums = none := by rw [Method.read?, if_neg hreads]
    split at hstep
    . next p property hparameters hproperty =>
      exact h.bindSetter hnames hparameters hproperty hstep
    -- a method that is no getter and no setter binds no field and is no item of either kind
    . next hother =>
      cases hstep
      apply h.skip hread
      unfold Method.assigned?
      split
      . next p hparameters =>
        have hproperty : setterProperty? m.name = none := by
          cases hproperty : setterProperty? m.name with
          | none => rfl
          | some property => exact absurd hproperty (hother p property hparameters)
        rw [hproperty, Option.bind_none]
      . rfl

theorem Bound.foldlM_bindMethod (hnames : (fs.map Field.name).Nodup) {methods : List Method}
    (h : Bound markers enums className fs constructors done c)
    (hsteps : methods.foldlM (Record.bindMethod markers enums) c = .ok c') :
    Bound markers enums className fs constructors (done ++ methods) c' := by
  induction methods generalizing done c with
  | nil =>
    cases hsteps
    rw [List.append_nil]
    exact h
  | cons m methods ih =>
    rw [List.foldlM_cons, bind_eq_ok_iff] at hsteps
    obtain ⟨next, hstep, hsteps⟩ := hsteps
    have hrest := ih (h.bindMethod hnames hstep) hsteps
    rwa [List.append_assoc, List.singleton_append] at hrest

theorem describeFields_bound {described gs : List HostClass.Field} {before fields : List Field}
    (hbefore : List.Forall₂ (Field.BoundAmong markers enums []) before described)
    (hnames : (before.map Field.name).Nodup)
    (h : describeFields markers enums className described fields = .ok gs) :
    List.Forall₂ (Field.BoundAmong markers enums []) (before ++ fields) gs ∧
      ((before ++ fields).map Field.name).Nodup := by
  induction fields generalizing described before with
  | nil =>
    cases h
    rw [List.append_nil]
    exact ⟨hbefore, hnames⟩
  | cons f fields ih =>
    unfold describeFields at h
    dsimp only at h
    split at h
    . cases h
    . next hfresh =>
      obtain ⟨type, htype, h⟩ := bind_eq_ok_iff.mp h
      have hfield : Field.BoundAmong markers enums [] f ⟨f.name, type, f.isFinal, false, false⟩ :=
        ⟨⟨rfl, rfl, readDeclaredType_eq_ok_iff.mp htype⟩, rfl, rfl⟩
      rw [← List.singleton_append, ← List.append_assoc]
      apply ih (List.rel_append hbefore (.cons hfield .nil)) _ h
      rw [List.map_append, List.map_singleton, ← List.concat_eq_append]
      apply hnames.concat
      intro hmem
      obtain ⟨f', hf', hname⟩ := List.mem_map.mp hmem
      obtain ⟨g', hg', hbound⟩ := exists_of_mem_left hbefore hf'
      apply hfresh
      rw [List.any_eq_true]
      exact ⟨g', hg', by simp [hbound.described.name, hname]⟩

theorem Bound.exists_field? (hnames : (fs.map Field.name).Nodup)
    (h : Bound markers enums className fs constructors done c) {f : Field} (hf : f ∈ fs) :
    ∃ g, c.field? f.name = some g ∧ f.DescribedBy markers enums g := by
  have hrel := rel_find? (p := fun f' => f'.name == f.name) (q := fun g => g.name == f.name)
    h.fields fun f' g hfg => by rw [hfg.described.name]
  have hfind : fs.find? (fun f' => f'.name == f.name) = some f := by
    cases hfound : fs.find? (fun f' => f'.name == f.name) with
    | none => exact absurd (List.find?_eq_none.mp hfound f hf) (by simp)
    | some f' =>
      have hname : f'.name = f.name := by simpa using List.find?_some hfound
      rw [List.inj_on_of_nodup_map hnames (List.mem_of_find?_eq_some hfound) hf hname]
  rw [hfind] at hrel
  rw [HostClass.field?]
  generalize c.fields.find? (fun g => g.name == f.name) = found at hrel ⊢
  cases hrel with
  | some hfg => exact ⟨_, rfl, hfg.described⟩

end

theorem bound_start {r : Record} {fields : List HostClass.Field}
    (hfields : describeFields markers enums r.name [] r.instanceFields = .ok fields)
    (constructors : List HostClass.Constructor) :
    (r.instanceFields.map Field.name).Nodup ∧
      Bound markers enums r.name r.instanceFields constructors []
        { HostClass.plain r.name with fields, constructors } := by
  obtain ⟨hfields, hnames⟩ := describeFields_bound .nil List.nodup_nil hfields
  have hcomputed : leftover (Field.isReadBy enums) r.instanceFields (readersAmong enums []) = [] :=
    List.sublist_nil.mp leftover_sublist
  refine ⟨hnames, ?_⟩
  exact
    { name := rfl
      isEnum := rfl
      constructors := rfl
      fields := hfields
      getters := fun f _ => .none
      computed := by
        rw [hcomputed]
        exact .nil
      setters := fun f _ => .none }

/-- A class holds the members of its record, with every method bound that reads or assigns a field. -/
theorem bound_of_describe {r : Record} {c : HostClass} (hclass : r.isEnum = false)
    (h : describe markers enums r = .ok c) :
    (r.instanceFields.map Field.name).Nodup ∧
      List.Forall₂ (Constructor.DescribedBy markers enums) r.publicConstructors c.constructors ∧
      Bound markers enums r.name r.instanceFields c.constructors r.publicMethods c := by
  obtain ⟨henum, -⟩ | ⟨-, fields, constructors, hfields, hconstructors, hmethods⟩ := describe_cases h
  . rw [hclass] at henum
    cases henum
  obtain ⟨hnames, hstart⟩ := bound_start hfields constructors
  have hbound := hstart.foldlM_bindMethod hnames hmethods
  rw [List.nil_append] at hbound
  rw [hbound.constructors]
  exact ⟨hnames, describeConstructors_describedBy hconstructors, hbound⟩

end Facade.Record
