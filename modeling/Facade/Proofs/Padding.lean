import Facade.Proofs.Binding.Bound
import Facade.Proofs.Extraction
import Facade.Proofs.Signature.Blanks

/-!
This module contains the proofs about white space around the types in a record. It makes no difference
to the class that the record describes, except that a method returns nothing only if it says so without
white space.
-/

namespace Facade

open Text Host Outcome Settings

def Text.Pads (source padded : String) : Prop :=
  ∃ before after, (∀ c ∈ before, isBlank c = true) ∧ (∀ c ∈ after, isBlank c = true) ∧
    padded.toList = before ++ source.toList ++ after

theorem Text.Pads.of_all {source padded : String} (before after : List Char)
    (hbefore : before.all isBlank = true) (hafter : after.all isBlank = true)
    (h : padded.toList = before ++ source.toList ++ after) : Pads source padded :=
  ⟨before, after, List.all_eq_true.mp hbefore, List.all_eq_true.mp hafter, h⟩

theorem Text.Pads.trimmed_eq {source padded : String} (h : Pads source padded) :
    trimmed padded = trimmed source := by
  obtain ⟨before, after, hbefore, hafter, hpadded⟩ := h
  rw [trimmed, trimmed, hpadded, trim_pad hbefore hafter]

namespace Record

structure Field.Pads (f f' : Field) : Prop where
  name : f'.name = f.name
  type : Text.Pads f.type f'.type
  modifiers : f'.modifiers = f.modifiers
  annotations : f'.annotations = f.annotations

structure Parameter.Pads (p p' : Parameter) : Prop where
  name : p'.name = p.name
  type : Text.Pads p.type p'.type
  annotations : p'.annotations = p.annotations

structure Constructor.Pads (k k' : Constructor) : Prop where
  parameters : List.Forall₂ Parameter.Pads k.parameters k'.parameters
  modifiers : k'.modifiers = k.modifiers

structure Method.Pads (m m' : Method) : Prop where
  name : m'.name = m.name
  returns : Text.Pads m.returns m'.returns
  parameters : List.Forall₂ Parameter.Pads m.parameters m'.parameters
  throws : m'.throws = m.throws
  annotations : m'.annotations = m.annotations
  modifiers : m'.modifiers = m.modifiers

end Record

/-- Whether a record is another one with white space around its types. -/
structure Record.Pads (r r' : Record) : Prop where
  name : r'.name = r.name
  kind : r'.kind = r.kind
  constants : r'.constants = r.constants
  modifiers : r'.modifiers = r.modifiers
  fields : List.Forall₂ Field.Pads r.fields r'.fields
  constructors : List.Forall₂ Constructor.Pads r.constructors r'.constructors
  methods : List.Forall₂ Method.Pads r.methods r'.methods

namespace Record

variable {markers : Markers} {enums : List String} {className : String}

theorem typeNamed?_of_pads {source padded : String} (h : Text.Pads source padded) {type : HostType}
    (htype : typeNamed? enums source = some type) : typeNamed? enums padded = some type := by
  unfold typeNamed? at htype ⊢
  rw [h.trimmed_eq]
  split at htype
  . cases htype
  . next hvoid =>
    rw [if_neg hvoid]
    obtain ⟨before, after, hbefore, hafter, hpadded⟩ := h
    obtain ⟨s, hs, rfl⟩ := Option.map_eq_some_iff.mp htype
    rw [hpadded, Signature.parse_pad hbefore hafter (toOption_eq_some_iff.mp hs)]
    rfl

theorem readType_of_pads {member member' source padded : String} (h : Text.Pads source padded)
    {type : HostType} (htype : readType enums member source = .ok type) :
    readType enums member' padded = .ok type :=
  readType_eq_ok_iff.mpr (typeNamed?_of_pads h (readType_eq_ok_iff.mp htype))

theorem readDeclaredType_of_pads {member source padded : String} {annotations : List String}
    (h : Text.Pads source padded) {type : HostType}
    (htype : readDeclaredType markers enums member source annotations = .ok type) :
    readDeclaredType markers enums member padded annotations = .ok type := by
  obtain ⟨plain, hplain, rfl⟩ := readDeclaredType_eq_ok_iff.mp htype
  exact readDeclaredType_eq_ok_iff.mpr ⟨plain, typeNamed?_of_pads h hplain, rfl⟩

theorem readType_void_of_pads {member source padded : String} (h : Text.Pads source padded)
    (hvoid : source = "void") :
    readType enums member padded = .error (.flawed member .voidValue) := by
  rw [readType, h.trimmed_eq, hvoid]
  exact if_pos (by decide)

theorem Method.Pads.isVoid {m m' : Method} (h : m.Pads m') (hvoid : m'.isVoid = true) :
    m.isVoid = true := by
  obtain ⟨before, after, hbefore, hafter, hreturns⟩ := h.returns
  rw [Method.isVoid, beq_iff_eq] at hvoid ⊢
  rw [hvoid] at hreturns
  have hword : "void".toList.all (fun c => !isBlank c) = true := by decide
  have hnil : ∀ blanks : List Char, (∀ c ∈ blanks, isBlank c = true) →
      (∀ c ∈ blanks, c ∈ "void".toList) → blanks = [] := by
    intro blanks hblanks hmem
    rw [List.eq_nil_iff_forall_not_mem]
    intro c hc
    have hother := List.all_eq_true.mp hword c (hmem c hc)
    rw [hblanks c hc] at hother
    cases hother
  have hbeforeNil := hnil before hbefore fun c hc => by simp [hreturns, hc]
  have hafterNil := hnil after hafter fun c hc => by simp [hreturns, hc]
  rw [hbeforeNil, hafterNil, List.nil_append, List.append_nil, String.toList_inj] at hreturns
  exact hreturns.symm

theorem Method.Pads.isVoid_eq_false {m m' : Method} (h : m.Pads m') (hvoid : m.isVoid = false) :
    m'.isVoid = false := by
  rw [← Bool.not_eq_true] at hvoid ⊢
  exact fun hvoid' => hvoid (h.isVoid hvoid')

theorem Method.Pads.parameters_eq_nil_iff {m m' : Method} (h : m.Pads m') :
    m'.parameters = [] ↔ m.parameters = [] := by
  rw [← List.length_eq_zero_iff, ← List.length_eq_zero_iff, h.parameters.length_eq]

theorem Method.Pads.exists_parameter {m m' : Method} (h : m.Pads m') {p : Parameter}
    (hparameters : m.parameters = [p]) : ∃ p', m'.parameters = [p'] ∧ p.Pads p' := by
  have hall := h.parameters
  rw [hparameters, List.forall₂_cons_left_iff] at hall
  obtain ⟨p', rest, hp, hrest, heq⟩ := hall
  rw [List.forall₂_nil_left_iff.mp hrest] at heq
  exact ⟨p', heq, hp⟩

theorem Method.Pads.exists_parameter_of {m m' : Method} (h : m.Pads m') {p' : Parameter}
    (hparameters : m'.parameters = [p']) : ∃ p, m.parameters = [p] := by
  rw [← List.length_eq_one_iff, h.parameters.length_eq, hparameters, List.length_singleton]

theorem exists_assigned?_of_taker? {fields : List Field} {earlier : List Method} {m : Method}
    (h : (Matching.taker? (Field.isAssignedBy enums) fields earlier m).isSome = true) :
    ∃ property, m.assigned? enums = some property := by
  obtain ⟨f, hf⟩ := Option.isSome_iff_exists.mp h
  have hassigned : f.isAssignedBy enums m = true := by
    have htaken := List.find?_some (l := fields) hf
    exact (Bool.and_eq_true_iff.mp htaken).1
  rw [Field.isAssignedBy, Option.any_eq_true] at hassigned
  obtain ⟨property, hproperty, -⟩ := hassigned
  exact ⟨property, hproperty⟩

theorem describeFields_of_pads {fields fields' : List Field} (h : List.Forall₂ Field.Pads fields fields')
    {done gs : List HostClass.Field}
    (hfields : describeFields markers enums className done fields = .ok gs) :
    describeFields markers enums className done fields' = .ok gs := by
  induction h generalizing done with
  | nil => exact hfields
  | @cons f f' fields fields' hf _ ih =>
    unfold describeFields at hfields ⊢
    rw [hf.name, hf.annotations]
    dsimp only at hfields ⊢
    split at hfields
    . cases hfields
    . next hfresh =>
      obtain ⟨type, htype, hrest⟩ := bind_eq_ok_iff.mp hfields
      have hfinal : f'.isFinal = f.isFinal := by rw [Field.isFinal, Field.isFinal, hf.modifiers]
      rw [if_neg hfresh, readDeclaredType_of_pads hf.type htype, ok_bind, hfinal]
      exact ih hrest

theorem describeParameter_of_pads {index : Nat} {p p' : Parameter} (h : p.Pads p')
    {q : HostClass.Parameter} (hp : describeParameter markers enums className index p = .ok q) :
    describeParameter markers enums className index p' = .ok q := by
  unfold describeParameter at hp ⊢
  rw [h.name, h.annotations]
  dsimp only at hp ⊢
  split at hp
  . cases hp
  . next hname =>
    obtain ⟨type, htype, hq⟩ := bind_eq_ok_iff.mp hp
    rw [if_neg hname, readType_of_pads h.type htype]
    exact hq

theorem describeConstructors_of_pads {ks ks' : List Constructor}
    (h : List.Forall₂ Constructor.Pads ks ks') {index : Nat} {ls : List HostClass.Constructor}
    (hconstructors : describeConstructors markers enums className index ks = .ok ls) :
    describeConstructors markers enums className index ks' = .ok ls := by
  induction h generalizing index ls with
  | nil => exact hconstructors
  | cons hk _ ih =>
    unfold describeConstructors at hconstructors ⊢
    obtain ⟨parameters, hparameters, hrest⟩ := bind_eq_ok_iff.mp hconstructors
    obtain ⟨rest, htail, hls⟩ := bind_eq_ok_iff.mp hrest
    rw [mapM_of_forall₂ hk.parameters (fun _ _ _ hp => describeParameter_of_pads hp) hparameters, ok_bind,
      ih htail]
    exact hls

theorem bindGetter_of_pads {m m' : Method} (h : m.Pads m') {c c' : HostClass}
    (hstep : bindGetter markers enums c m = .ok c') : bindGetter markers enums c m' = .ok c' := by
  obtain ⟨type, htype, hrest⟩ := bind_eq_ok_iff.mp hstep
  rw [bindGetter, h.name, h.annotations, h.throws]
  dsimp only
  rw [readDeclaredType_of_pads h.returns htype]
  exact hrest

theorem readReturnType_of_pads {m m' : Method} (h : m.Pads m')
    (hvoid : m.isVoid = true → m'.isVoid = true) {member : String} {type : HostType}
    (htype : readReturnType enums member m = .ok type) :
    readReturnType enums member m' = .ok type := by
  unfold readReturnType at htype ⊢
  split at htype
  . next hm =>
    rw [if_pos (hvoid hm)]
    exact htype
  . next hm =>
    rw [if_neg fun hm' => hm (h.isVoid hm')]
    exact readType_of_pads h.returns htype

/-- Whether it makes a difference that a method behind some others returns nothing: the method takes
nothing, or a field gets it as the method that assigns it. -/
def Method.Counts (enums : List String) (fields : List Field) (earlier : List Method) (m : Method) : Prop :=
  m.parameters = [] ∨
    (Matching.taker? (Field.isAssignedBy enums) fields earlier m).isSome = true

instance (fields : List Field) (earlier : List Method) (m : Method) :
    Decidable (m.Counts enums fields earlier) :=
  inferInstanceAs (Decidable (_ ∨ _))

section

variable {fs : List Field} {constructors : List HostClass.Constructor} {done : List Method}
variable {c c' : HostClass} {m m' : Method}

theorem bindSetter_of_pads (hbound : Bound markers enums className fs constructors done c)
    (h : m.Pads m') {p p' : Parameter} {property : String} (hparameters : m.parameters = [p])
    (hproperty : setterProperty? m.name = some property) (hp : p.Pads p')
    (hvoid : m.isVoid = true → m.Counts enums fs done → m'.isVoid = true)
    (hstep : bindSetter markers enums c m p property = .ok c') :
    bindSetter markers enums c m' p' property = .ok c' := by
  obtain ⟨type, htype, hstep⟩ := bind_eq_ok_iff.mp hstep
  rw [bindSetter, h.name, h.throws, hp.annotations]
  dsimp only at hstep ⊢
  rw [readDeclaredType_of_pads hp.type htype, ok_bind]
  obtain ⟨plain, hplain, rfl⟩ := readDeclaredType_eq_ok_iff.mp htype
  have hassigned : m.assigned? enums = some (property, plain) := by
    simp [Method.assigned?, hparameters, hproperty, hplain]
  have htaker := hbound.find?_acceptsSetter hassigned (!markers.saysPresent p.annotations)
  split at hstep
  . exact hstep
  . next field hfound =>
    obtain ⟨returns, hreturns, hstep⟩ := bind_eq_ok_iff.mp hstep
    -- a field was found, so it matters whether the method returns nothing
    have hcounts : m.Counts enums fs done := by
      right
      rw [← Option.isSome_map, ← htaker, hfound]
      rfl
    rw [readReturnType_of_pads h (fun hm => hvoid hm hcounts) hreturns]
    exact hstep

/-- A method with white space around its types makes the same of a class, if it still returns nothing
where this makes a difference. -/
theorem bindMethod_of_pads (hbound : Bound markers enums className fs constructors done c)
    (h : m.Pads m') (hvoid : m.isVoid = true → m.Counts enums fs done → m'.isVoid = true)
    (hstep : bindMethod markers enums c m = .ok c') : bindMethod markers enums c m' = .ok c' := by
  by_cases hreturns : m.parameters = [] ∧ m.isVoid = false
  . obtain ⟨hparameters, hm⟩ := hreturns
    rw [bindMethod_of_returns hparameters hm] at hstep
    rw [bindMethod_of_returns (h.parameters_eq_nil_iff.mpr hparameters) (h.isVoid_eq_false hm)]
    exact bindGetter_of_pads h hstep
  by_cases hassigns : ∃ p property, m.parameters = [p] ∧ setterProperty? m.name = some property
  . obtain ⟨p, property, hparameters, hproperty⟩ := hassigns
    obtain ⟨p', hparameters', hp⟩ := h.exists_parameter hparameters
    rw [bindMethod_of_assigns hparameters hproperty] at hstep
    rw [← h.name] at hproperty
    rw [bindMethod_of_assigns hparameters' hproperty]
    rw [h.name] at hproperty
    exact bindSetter_of_pads hbound h hparameters hproperty hp hvoid hstep
  -- neither a getter nor a setter: the padded method must not become one
  . have hnone : ∀ p, m.parameters = [p] → setterProperty? m.name = none := by
      intro p hparameters
      rw [Option.eq_none_iff_forall_ne_some]
      exact fun property hproperty => hassigns ⟨p, property, hparameters, hproperty⟩
    have hempty : m.parameters = [] → m.isVoid = true := by
      intro hparameters
      rw [← Bool.not_eq_false]
      exact fun hm => hreturns ⟨hparameters, hm⟩
    rw [bindMethod_of_neither hempty hnone] at hstep
    rw [← hstep]
    apply bindMethod_of_neither
    . intro hparameters'
      have hparameters := h.parameters_eq_nil_iff.mp hparameters'
      exact hvoid (hempty hparameters) (.inl hparameters)
    . intro p' hparameters'
      obtain ⟨p, hparameters⟩ := h.exists_parameter_of hparameters'
      rw [h.name]
      exact hnone p hparameters

/-- A method that returns nothing stops the description of its class if this makes a difference and is
not said without white space any more. -/
theorem bindMethod_error_of_pads (hbound : Bound markers enums className fs constructors done c)
    (h : m.Pads m') (hm : m.isVoid = true) (hm' : m'.isVoid = false) (hcounts : m.Counts enums fs done) :
    ∃ refusal, bindMethod markers enums c m' = .error refusal := by
  have hvoid : ∀ member, readType enums member m'.returns = .error (.flawed member .voidValue) :=
    fun _ => readType_void_of_pads h.returns (beq_iff_eq.mp hm)
  obtain hparameters | htaken := hcounts
  . rw [bindMethod_of_returns (h.parameters_eq_nil_iff.mpr hparameters) hm']
    dsimp only [bindGetter, readDeclaredType]
    rw [hvoid]
    exact ⟨_, rfl⟩
  -- a setter reads the type of its parameter and finds a field before it reads what it returns
  . obtain ⟨⟨property, plain⟩, hassigned⟩ := exists_assigned?_of_taker? htaken
    obtain ⟨p, hparameters, hproperty, hplain⟩ := Method.exists_of_assigned? hassigned
    obtain ⟨p', hparameters', hp⟩ := h.exists_parameter hparameters
    have htaker := hbound.find?_acceptsSetter hassigned (!markers.saysPresent p'.annotations)
    have hfound : (c.fields.find? (acceptsSetter property
        (plain.withNullable (!markers.saysPresent p'.annotations)))).isSome = true := by
      rw [← Option.isSome_map, htaker, Option.isSome_map]
      exact htaken
    obtain ⟨field, hfield⟩ := Option.isSome_iff_exists.mp hfound
    have htype : readDeclaredType markers enums (methodName c.name m'.name) p'.type p'.annotations =
        .ok (plain.withNullable (!markers.saysPresent p'.annotations)) :=
      readDeclaredType_eq_ok_iff.mpr ⟨plain, typeNamed?_of_pads hp.type hplain, rfl⟩
    rw [← h.name] at hproperty
    rw [bindMethod_of_assigns hparameters' hproperty]
    dsimp only [bindSetter]
    rw [htype, ok_bind, hfield]
    dsimp only [readReturnType]
    rw [hm', if_neg nofun, hvoid]
    exact ⟨_, rfl⟩

/-- Whether the methods behind some others that return nothing still do so with white space around their
types, where this makes a difference. -/
def KeepVoid (enums : List String) (fields : List Field) (earlier methods padded : List Method) : Prop :=
  ∀ (i : Nat) (m m' : Method), methods[i]? = some m → padded[i]? = some m' → m.isVoid = true →
    m.Counts enums fields (earlier ++ methods.take i) → m'.isVoid = true

theorem keepVoid_nil : KeepVoid enums fs done [] [] := by
  intro i m m' hm
  cases hm

theorem keepVoid_cons {ms ms' : List Method} :
    KeepVoid enums fs done (m :: ms) (m' :: ms') ↔
      (m.isVoid = true → m.Counts enums fs done → m'.isVoid = true) ∧
        KeepVoid enums fs (done ++ [m]) ms ms' := by
  unfold KeepVoid
  rw [← Nat.and_forall_add_one]
  simp [List.append_assoc]

theorem foldlM_bindMethod_of_pads (hnames : (fs.map Field.name).Nodup) {ms ms' : List Method}
    (h : List.Forall₂ Method.Pads ms ms')
    (hbound : Bound markers enums className fs constructors done c)
    (hsteps : ms.foldlM (bindMethod markers enums) c = .ok c') :
    ms'.foldlM (bindMethod markers enums) c = .ok c' ↔ KeepVoid enums fs done ms ms' := by
  induction h generalizing done c with
  | nil => exact iff_of_true hsteps keepVoid_nil
  | @cons m m' ms ms' hm hms ih =>
    rw [List.foldlM_cons] at hsteps ⊢
    obtain ⟨next, hstep, hrest⟩ := bind_eq_ok_iff.mp hsteps
    rw [keepVoid_cons]
    by_cases hvoid : m.isVoid = true → m.Counts enums fs done → m'.isVoid = true
    . rw [bindMethod_of_pads hbound hm hvoid hstep, ok_bind,
        ih (hbound.bindMethod hnames hstep) hrest, and_iff_right hvoid]
    . refine iff_of_false ?_ fun hkeep => hvoid hkeep.1
      rw [Classical.not_imp, Classical.not_imp, Bool.not_eq_true] at hvoid
      obtain ⟨refusal, hrefusal⟩ := bindMethod_error_of_pads hbound hm hvoid.1 hvoid.2.2 hvoid.2.1
      rw [hrefusal]
      nofun

end

theorem Pads.publicMethods {r r' : Record} (h : r.Pads r') :
    List.Forall₂ Method.Pads r.publicMethods r'.publicMethods :=
  forall₂_filter h.methods fun m m' hm => by rw [hm.modifiers]

theorem Pads.publicConstructors {r r' : Record} (h : r.Pads r') :
    List.Forall₂ Constructor.Pads r.publicConstructors r'.publicConstructors :=
  forall₂_filter h.constructors fun k k' hk => by rw [hk.modifiers]

theorem Pads.instanceFields {r r' : Record} (h : r.Pads r') :
    List.Forall₂ Field.Pads r.instanceFields r'.instanceFields :=
  forall₂_filter h.fields fun f f' hf => by rw [Field.isStatic, Field.isStatic, hf.modifiers]

/-- White space around the types in a record that is described makes no difference just if no method
that returns nothing says so with white space, where this makes a difference. -/
theorem describe_pads_iff {r r' : Record} (hpads : r.Pads r') {c : HostClass}
    (h : describe markers enums r = .ok c) :
    describe markers enums r' = .ok c ↔
      (r.isEnum = false →
        KeepVoid enums r.instanceFields [] r.publicMethods r'.publicMethods) := by
  obtain ⟨⟨⟩, hname, h⟩ := bind_eq_ok_iff.mp h
  have hkind : r'.isEnum = r.isEnum := by rw [isEnum, isEnum, hpads.kind]
  unfold describe
  rw [hpads.name, hname, hkind, ok_bind]
  cases henum : r.isEnum with
  | true =>
    rw [if_pos henum] at h
    have henum' : describeEnum r' = .ok c := by
      rw [describeEnum, hpads.name, hpads.constants]
      exact h
    refine iff_of_true henum' ?_
    intro hclass
    cases hclass
  | false =>
    rw [henum, if_neg Bool.false_ne_true] at h
    obtain ⟨fields, hfields, h⟩ := bind_eq_ok_iff.mp h
    obtain ⟨ks, hconstructors, h⟩ := bind_eq_ok_iff.mp h
    obtain ⟨hnames, hstart⟩ := bound_start hfields ks
    have hfields' := describeFields_of_pads hpads.instanceFields hfields
    rw [instanceFields] at hfields'
    rw [if_neg Bool.false_ne_true, hfields', ok_bind,
      describeConstructors_of_pads hpads.publicConstructors hconstructors, ok_bind,
      foldlM_bindMethod_of_pads hnames hpads.publicMethods hstart h, forall_prop_of_true rfl]

/-- A record of a class with a field that a constructor, a getter and a setter are for, and a method that
is for none. The given texts are those for the type of the field and for no value. -/
def gaugeRecord (int void void' : String) : Record :=
  {
    name := "p.Gauge", kind := .class, constants := [], modifiers := [.public]
    fields := [⟨"size", int, [.private], []⟩]
    constructors := [⟨[⟨"size", int, []⟩], [.public]⟩]
    methods :=
      [⟨"getSize", int, [], [], [], [.public]⟩,
        ⟨"setSize", void, [⟨"size", int, []⟩], [], [], [.public]⟩,
        ⟨"move", void', [⟨"from", int, []⟩, ⟨"to", int, []⟩], [], [], [.public]⟩]
  }

theorem pads_gaugeRecord {int void void' : String} (hint : Text.Pads "int" int)
    (hvoid : Text.Pads "void" void) (hvoid' : Text.Pads "void" void') :
    (gaugeRecord "int" "void" "void").Pads (gaugeRecord int void void') := by
  have hparameter : ∀ name, Parameter.Pads ⟨name, "int", []⟩ ⟨name, int, []⟩ :=
    fun _ => ⟨rfl, hint, rfl⟩
  constructor
  . rfl
  . rfl
  . rfl
  . rfl
  . exact .cons ⟨rfl, hint, rfl, rfl⟩ .nil
  . exact .cons ⟨.cons (hparameter _) .nil, rfl⟩ .nil
  . refine .cons ⟨rfl, hint, .nil, rfl, rfl, rfl⟩ ?_
    refine .cons ⟨rfl, hvoid, .cons (hparameter _) .nil, rfl, rfl, rfl⟩ ?_
    exact .cons ⟨rfl, hvoid', .cons (hparameter _) (.cons (hparameter _) .nil), rfl, rfl, rfl⟩ .nil

theorem describe_pads_iff_gauge :
    ∃ c, describe .standard [] (gaugeRecord "int" "void" "void") = .ok c ∧
      describe .standard [] (gaugeRecord "\tint " "void" " void ") = .ok c := by
  have hpads : (gaugeRecord "int" "void" "void").Pads (gaugeRecord "\tint " "void" " void ") :=
    pads_gaugeRecord (Text.Pads.of_all ['\t'] [' '] rfl rfl rfl) (Text.Pads.of_all [] [] rfl rfl rfl)
      (Text.Pads.of_all [' '] [' '] rfl rfl rfl)
  refine ⟨_, rfl, (describe_pads_iff hpads rfl).mpr ?_⟩
  -- `setSize` still returns nothing, and nobody asks whether `move` does
  intro _
  exact keepVoid_cons.mpr ⟨by decide +kernel, keepVoid_cons.mpr ⟨by decide +kernel,
    keepVoid_cons.mpr ⟨by decide +kernel, keepVoid_nil⟩⟩⟩

/-- A setter that says with white space that it returns nothing stops the description of its class. -/
theorem not_describe_pads_gauge :
    (gaugeRecord "int" "void" "void").Pads (gaugeRecord "int" " void" "void") ∧
      (∃ c, describe .standard [] (gaugeRecord "int" "void" "void") = .ok c) ∧
      describe .standard [] (gaugeRecord "int" " void" "void") =
        .error (.flawed "p.Gauge.setSize()" .voidValue) := by
  refine ⟨?_, ⟨_, rfl⟩, rfl⟩
  exact pads_gaugeRecord (Text.Pads.of_all [] [] rfl rfl rfl) (Text.Pads.of_all [' '] [] rfl rfl rfl)
    (Text.Pads.of_all [] [] rfl rfl rfl)

end Record

end Facade
