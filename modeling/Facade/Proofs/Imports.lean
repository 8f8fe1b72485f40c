import Facade.Proofs.Outline.Written

/-!
This module contains the proof that the source of a wrapper imports what its conversions are written
with, and nothing else. Imports are decided by the types of members, and conversions by a recursion of
their own, which leaves out what changes nothing.
-/

namespace Facade.Scala

open Text Host Source

/-- What an expression applies to a value: one of its members, or a function. -/
inductive Applied where
  | member (name : String)
  | function (name : String)
  deriving DecidableEq, Repr

namespace Expression

def applied : Expression → List Applied
  | code _ => []
  | select value member => .member member :: value.applied
  | call function value => .function function :: value.applied
  | create _ value => value.applied
  | mapElements collection _ body => collection.applied ++ body.applied
  | mapEntries entries _ _ keyBody valueBody =>
    entries.applied ++ (keyBody.applied ++ valueBody.applied)

section

variable {a : Applied}

@[simp]
theorem applied_code (text : String) : (code text).applied = [] := rfl

@[simp]
theorem mem_applied_select {value : Expression} {member : String} :
    a ∈ (value.select member).applied ↔ a = .member member ∨ a ∈ value.applied :=
  List.mem_cons

@[simp]
theorem mem_applied_call {value : Expression} {function : String} :
    a ∈ (call function value).applied ↔ a = .function function ∨ a ∈ value.applied :=
  List.mem_cons

theorem mem_applied_traversal (ha : a ≠ .member "iterator") (collection : Expression) :
    a ∈ collection.traversal.applied ↔ a ∈ collection.applied := by
  unfold traversal
  split
  . rw [mem_applied_select, or_iff_right ha]
  . rfl

-- What is left out applies nothing: it is a parameter as it is.

theorem mem_applied_convertElements (ha : a ≠ .member "iterator") (collection : Expression)
    (depth : Nat) (convert : Expression → Expression) :
    a ∈ (collection.convertElements depth convert).applied ↔
      a ∈ collection.applied ∨ a ∈ (convert (code s!"e{depth}")).applied := by
  unfold convertElements
  dsimp only
  split
  . next hsame =>
    rw [hsame, applied_code, or_iff_left List.not_mem_nil]
  . rw [applied, List.mem_append, mem_applied_traversal ha]

theorem mem_applied_convertEntries (ha : a ≠ .member "iterator") (entries : Expression)
    (depth : Nat) (convertKey convertValue : Expression → Expression) :
    a ∈ (entries.convertEntries depth convertKey convertValue).applied ↔
      a ∈ entries.applied ∨ a ∈ (convertKey (code s!"k{depth}")).applied ∨
        a ∈ (convertValue (code s!"v{depth}")).applied := by
  unfold convertEntries
  dsimp only
  split
  . next hsame =>
    rw [hsame.1, hsame.2, applied_code, applied_code, or_self, or_iff_left List.not_mem_nil]
  . rw [applied, List.mem_append, List.mem_append, mem_applied_traversal ha]

end

end Expression

namespace ScalaType

def givenBy : ScalaType → List Applied
  | scalar s boxed => if boxed && s.isPrimitive then [.function (scalarName s ++ ".box")] else []
  | enumeration _ _ => [.member "toJava"]
  | wrapper _ _ => [.member "underlying"]
  | external _ => []
  | list element => .member "asJava" :: element.givenBy
  | set element => .member "asJava" :: element.givenBy
  | map key value => .member "asJava" :: (key.givenBy ++ value.givenBy)
  | option value => .member "orNull" :: value.givenBy

def readBy : ScalaType → List Applied
  | scalar s boxed => if boxed && s.isPrimitive then [.member (loweredName s ++ "Value")] else []
  | enumeration name _ => [.function (name ++ ".fromJava")]
  | wrapper _ _ => []
  | external _ => []
  | list element => .member "toList" :: .member "asScala" :: element.readBy
  | set element => .member "toSet" :: .member "asScala" :: element.readBy
  | map key value => .function "ListMap.from" :: .member "asScala" :: (key.readBy ++ value.readBy)
  | option value => .function "Option" :: value.readBy

end ScalaType

section

variable {a : Applied}

theorem mem_applied_toHostAt (ha : a ≠ .member "iterator") (type : ScalaType) (depth : Nat)
    (x : Expression) : a ∈ (toHostAt type depth x).applied ↔ a ∈ x.applied ∨ a ∈ type.givenBy := by
  induction type generalizing depth x with
  | scalar s boxed =>
    rw [toHostAt, ScalaType.givenBy]
    split
    . rw [Expression.mem_applied_call, List.mem_singleton, or_comm]
    . rw [or_iff_left List.not_mem_nil]
  | enumeration | wrapper =>
    rw [toHostAt, ScalaType.givenBy, Expression.mem_applied_select, List.mem_singleton, or_comm]
  | external => rw [toHostAt, ScalaType.givenBy, or_iff_left List.not_mem_nil]
  | list element ih | set element ih | option element ih =>
    rw [toHostAt, ScalaType.givenBy, Expression.mem_applied_select,
      Expression.mem_applied_convertElements ha, ih, Expression.applied_code,
      or_iff_right List.not_mem_nil, List.mem_cons, or_left_comm]
  | map key value ihk ihv =>
    rw [toHostAt, ScalaType.givenBy, Expression.mem_applied_select,
      Expression.mem_applied_convertEntries ha, ihk, ihv, Expression.applied_code,
      Expression.applied_code, or_iff_right List.not_mem_nil, or_iff_right List.not_mem_nil,
      List.mem_cons, List.mem_append, or_left_comm]

theorem mem_applied_fromHostAt (ha : a ≠ .member "iterator") (type : ScalaType) (depth : Nat)
    (x : Expression) : a ∈ (fromHostAt type depth x).applied ↔ a ∈ x.applied ∨ a ∈ type.readBy := by
  induction type generalizing depth x with
  | scalar s boxed =>
    rw [fromHostAt, ScalaType.readBy]
    split
    . rw [Expression.mem_applied_select, List.mem_singleton, or_comm]
    . rw [or_iff_left List.not_mem_nil]
  | enumeration =>
    rw [fromHostAt, ScalaType.readBy, Expression.mem_applied_call, List.mem_singleton, or_comm]
  | wrapper | external => simp [fromHostAt, ScalaType.readBy, Expression.applied]
  -- what is applied around the elements is applied besides what is applied to each of them
  | list element ih | set element ih =>
    rw [fromHostAt, ScalaType.readBy, Expression.mem_applied_select,
      Expression.mem_applied_convertElements ha, ih, Expression.mem_applied_select,
      Expression.applied_code, or_iff_right List.not_mem_nil, List.mem_cons, List.mem_cons]
    tauto
  | option value ih =>
    rw [fromHostAt, ScalaType.readBy, Expression.mem_applied_convertElements ha, ih,
      Expression.mem_applied_call, Expression.applied_code, or_iff_right List.not_mem_nil,
      List.mem_cons]
    tauto
  | map key value ihk ihv =>
    rw [fromHostAt, ScalaType.readBy, Expression.mem_applied_call,
      Expression.mem_applied_convertEntries ha, ihk, ihv, Expression.mem_applied_select,
      Expression.applied_code, Expression.applied_code, or_iff_right List.not_mem_nil,
      or_iff_right List.not_mem_nil, List.mem_cons, List.mem_cons, List.mem_append]
    tauto

end

namespace ScalaType

theorem asJava_mem_givenBy_iff (type : ScalaType) :
    .member "asJava" ∈ type.givenBy ↔ type.holdsCollection = true := by
  induction type with
  | scalar s boxed =>
    rw [givenBy]
    split <;> simp [holdsCollection]
  | enumeration | wrapper | external => simp [givenBy, holdsCollection]
  | list | set | map => exact iff_of_true List.mem_cons_self rfl
  | option value ih =>
    rw [givenBy, holdsCollection, ← ih]
    simp

def givers : List Applied :=
  [.member "asJava", .member "orNull", .member "toJava", .member "underlying"] ++
    Scalar.all.map fun s => .function (scalarName s ++ ".box")

theorem givenBy_subset (type : ScalaType) : type.givenBy ⊆ givers := by
  induction type with
  | scalar s boxed =>
    rw [givenBy]
    split
    . cases s <;> decide
    . exact List.nil_subset _
  | enumeration | wrapper => exact List.cons_subset.mpr ⟨by decide, List.nil_subset _⟩
  | external => exact List.nil_subset _
  | list element ih | set element ih | option element ih =>
    exact List.cons_subset.mpr ⟨by decide, ih⟩
  | map key value ihk ihv =>
    exact List.cons_subset.mpr ⟨by decide, List.append_subset.mpr ⟨ihk, ihv⟩⟩

theorem asScala_mem_readBy_iff (type : ScalaType) :
    .member "asScala" ∈ type.readBy ↔ type.holdsCollection = true := by
  induction type with
  | scalar s boxed =>
    refine iff_of_false ?_ (by simp [holdsCollection])
    rw [readBy]
    split
    . cases s <;> decide
    . exact List.not_mem_nil
  | enumeration | wrapper | external => simp [readBy, holdsCollection]
  | list | set | map => exact iff_of_true (List.mem_cons_of_mem _ List.mem_cons_self) rfl
  | option value ih =>
    rw [readBy, holdsCollection, ← ih]
    simp

theorem asJava_not_mem_readBy (type : ScalaType) : .member "asJava" ∉ type.readBy := by
  induction type with
  | scalar s boxed =>
    rw [readBy]
    split
    . cases s <;> decide
    . exact List.not_mem_nil
  | enumeration | wrapper | external => simp [readBy]
  | list element ih | set element ih | option element ih => simpa [readBy] using ih
  | map key value ihk ihv => simp [readBy, ihk, ihv]

theorem listMap_mem_readBy_iff (type : ScalaType) :
    .function "ListMap.from" ∈ type.readBy ↔ type.holdsMap = true := by
  induction type with
  | scalar s boxed =>
    rw [readBy]
    split <;> simp [holdsMap]
  | enumeration name =>
    -- the functions end otherwise
    have hne : "ListMap.from" ≠ name ++ ".fromJava" := by
      intro heq
      have hlast := congrArg (fun text : String => text.toList.getLast?) heq
      simp at hlast
    simp [readBy, holdsMap, hne]
  | wrapper | external => simp [readBy, holdsMap]
  | list element ih | set element ih | option element ih => simpa [readBy, holdsMap] using ih
  | map key value ihk ihv => simp [readBy, holdsMap]

end ScalaType

namespace Expression

/-- Whether an expression makes a collection of the host one of Scala, or the other way round. -/
def usesConverters (x : Expression) : Bool :=
  x.applied.contains (.member "asScala") || x.applied.contains (.member "asJava")

/-- Whether an expression makes a map that keeps the order of its entries. -/
def usesListMap (x : Expression) : Bool :=
  x.applied.contains (.function "ListMap.from")

end Expression

section

variable (type : ScalaType) (text : String)

theorem mem_applied_toHost {a : Applied} (ha : a ≠ .member "iterator") :
    a ∈ (toHost type (.code text)).applied ↔ a ∈ type.givenBy := by
  rw [toHost, mem_applied_toHostAt ha, Expression.applied_code, or_iff_right List.not_mem_nil]

theorem mem_applied_fromHost {a : Applied} (ha : a ≠ .member "iterator") :
    a ∈ (fromHost type (.code text)).applied ↔ a ∈ type.readBy := by
  rw [fromHost, mem_applied_fromHostAt ha, Expression.applied_code, or_iff_right List.not_mem_nil]

theorem usesConverters_toHost :
    (toHost type (.code text)).usesConverters = type.holdsCollection := by
  have hnone : .member "asScala" ∉ type.givenBy :=
    fun h => absurd (type.givenBy_subset h) (by decide)
  rw [Bool.eq_iff_iff, Expression.usesConverters, Bool.or_eq_true, List.contains_iff_mem,
    List.contains_iff_mem, mem_applied_toHost type text (by decide),
    mem_applied_toHost type text (by decide), type.asJava_mem_givenBy_iff, or_iff_right hnone]

theorem usesConverters_fromHost :
    (fromHost type (.code text)).usesConverters = type.holdsCollection := by
  rw [Bool.eq_iff_iff, Expression.usesConverters, Bool.or_eq_true, List.contains_iff_mem,
    List.contains_iff_mem, mem_applied_fromHost type text (by decide),
    mem_applied_fromHost type text (by decide), type.asScala_mem_readBy_iff,
    or_iff_left type.asJava_not_mem_readBy]

theorem usesListMap_toHost : (toHost type (.code text)).usesListMap = false := by
  rw [← Bool.not_eq_true, Expression.usesListMap, List.contains_iff_mem,
    mem_applied_toHost type text (by decide)]
  exact fun h => absurd (type.givenBy_subset h) (by decide)

theorem usesListMap_fromHost : (fromHost type (.code text)).usesListMap = type.holdsMap := by
  rw [Bool.eq_iff_iff, Expression.usesListMap, List.contains_iff_mem,
    mem_applied_fromHost type text (by decide), type.listMap_mem_readBy_iff]

end

namespace Outline

/-- The conversions that the members of a wrapper are written with. -/
def conversions (o : Outline) : List Expression :=
  match o.body with
  | .enumeration _ => []
  | .members constructors getters setters =>
    constructors.flatMap (·.parameters.map ClassWrapper.parameterValue) ++
      setters.map ClassWrapper.setterValue ++ getters.map ClassWrapper.getterValue

theorem within_content_of_conversion {o : Outline} {x : Expression} (h : x ∈ o.conversions) :
    Within x.render o.file.content := by
  unfold conversions at h
  split at h
  . cases h
  . next constructors getters setters hbody =>
    simp only [List.mem_append, List.mem_flatMap, List.mem_map] at h
    obtain (⟨k, hk, p, hp, rfl⟩ | ⟨s, hs, rfl⟩) | ⟨g, hg, rfl⟩ := h
    . exact within_content_of_constructor hbody hk (ClassWrapper.writes_constructorDef _ hp).2
    . refine within_content_of_setter hbody hs ((ClassWrapper.writes_setterDef s).1.value.mono ?_)
      exact (Within.rfl.back _).front _
    . exact within_content_of_getter hbody hg (ClassWrapper.writes_getterDef g).value

end Outline

namespace ClassWrapper

open Outline

/-- A wrapper imports what some of its conversions use, whatever the types of its members are. -/
theorem imports_eq {o : Outline} {constructors : List Constructor} {getters : List Getter}
    {setters : List Setter} (hbody : o.body = .members constructors getters setters) :
    imports constructors getters setters =
      (if o.conversions.any Expression.usesConverters then
        [("scala.jdk.CollectionConverters", [ImportTable.wildcard])] else []) ++
      if o.conversions.any Expression.usesListMap then
        [("scala.collection.immutable", ["ListMap"])] else [] := by
  have hconverters : o.conversions.any Expression.usesConverters =
      (constructors.flatMap (·.parameters.map (·.type.target)) ++ setters.map (·.type.target) ++
        getters.map (·.type.target)).any ScalaType.holdsCollection := by
    simp only [conversions, hbody, List.any_append, List.any_flatMap, List.any_map,
      Function.comp_def, parameterValue, setterValue, getterValue, usesConverters_toHost,
      usesConverters_fromHost]
  have hlistMap : o.conversions.any Expression.usesListMap =
      (getters.map (·.type.target)).any ScalaType.holdsMap := by
    simp only [conversions, hbody, List.any_append, List.any_flatMap, List.any_map,
      Function.comp_def, parameterValue, setterValue, getterValue, usesListMap_toHost,
      usesListMap_fromHost]
    simp
  rw [hconverters, hlistMap, imports]
  split <;> split <;> rfl

end ClassWrapper

theorem not_import_of_head {line : String} {c : Char} (h : line.toList.head? = some c) (hc : c ≠ 'i') :
    ¬ "import ".toList <+: line.toList := by
  rintro ⟨rest, hrest⟩
  rw [← hrest] at h
  exact hc (Option.some.inj h).symm

theorem eq_of_line_mem_withMembers {header line : String} {members : List (List Fragment)}
    (h : .line line ∈ withMembers header members) : line = header := by
  unfold withMembers at h
  split at h
  . exact Fragment.line.inj (List.mem_singleton.mp h)
  . exact absurd (List.mem_singleton.mp h) (by simp [Fragment.braced])

namespace Outline

/-- Nothing in the body of a source is an import. -/
theorem not_import_of_mem_body {o : Outline} {group : List Fragment}
    (hgroup : group ∈ o.sourceFile.body) {line : String} (h : .line line ∈ group) :
    ¬ "import ".toList <+: line.toList := by
  unfold sourceFile at hgroup
  split at hgroup
  . obtain rfl | hgroup := List.mem_cons.mp hgroup
    . rw [eq_of_line_mem_withMembers h]
      exact not_import_of_head (c := 's') (by simp [ClassDef.header]) (by decide)
    . rw [List.mem_singleton.mp hgroup] at h
      rw [eq_of_line_mem_withMembers h]
      exact not_import_of_head (c := 'o') (by simp [ObjectDef.header]) (by decide)
  . rw [ClassWrapper.body_sourceFile] at hgroup
    rw [List.mem_singleton.mp hgroup] at h
    rw [eq_of_line_mem_withMembers h]
    exact not_import_of_head (c := 'f') (by simp [ClassDef.header, ClassWrapper.classDef])
      (by decide)

theorem imports_sourceFile (o : Outline) : o.sourceFile.imports =
    (if o.conversions.any Expression.usesConverters then
      [("scala.jdk.CollectionConverters", [ImportTable.wildcard])] else []) ++
    if o.conversions.any Expression.usesListMap then
      [("scala.collection.immutable", ["ListMap"])] else [] := by
  cases hbody : o.body with
  | enumeration constants =>
    rw [sourceFile, conversions, hbody]
    rfl
  | members constructors getters setters =>
    rw [← ClassWrapper.imports_eq hbody, sourceFile, hbody]
    rfl

theorem import_prefix_importLine (package : String) (symbols : List String) :
    "import ".toList <+: (importLine package symbols).toList := by
  unfold importLine
  split
  . simp
  . split <;> simp

theorem import_mem_fragments_iff (o : Outline) (line : String) :
    .line line ∈ o.sourceFile.fragments ∧ "import ".toList <+: line.toList ↔
      ∃ entry ∈ o.sourceFile.imports, line = importLine entry.1 entry.2 := by
  simp only [SourceFile.fragments, List.mem_append, List.mem_flatMap]
  constructor
  -- the groups of a file: header, origin, package, imports and body
  . rintro ⟨(((h | h) | h) | h) | ⟨group, hgroup, h⟩, himport⟩
    . rw [Fragment.line.inj (List.mem_singleton.mp h)] at himport
      exact absurd himport (by decide)
    . obtain ⟨className, -, heq⟩ := List.mem_map.mp h
      rw [← Fragment.line.inj heq] at himport
      exact absurd himport (not_import_of_head (c := '/') (by simp) (by decide))
    . split at h
      . cases h
      . rw [List.mem_cons, or_iff_right Fragment.noConfusion, List.mem_singleton] at h
        rw [Fragment.line.inj h] at himport
        exact absurd himport (not_import_of_head (c := 'p') (by simp) (by decide))
    . split at h
      . cases h
      . rw [List.mem_cons, or_iff_right Fragment.noConfusion] at h
        obtain ⟨entry, hentry, heq⟩ := List.mem_map.mp h
        exact ⟨entry, hentry, (Fragment.line.inj heq).symm⟩
    . rw [List.mem_cons, or_iff_right Fragment.noConfusion] at h
      exact absurd himport (not_import_of_mem_body hgroup h)
  . rintro ⟨entry, hentry, rfl⟩
    have hsome : o.sourceFile.imports.isEmpty = false := by
      rw [List.isEmpty_eq_false_iff_exists_mem]
      exact ⟨entry, hentry⟩
    refine ⟨.inl (.inr ?_), import_prefix_importLine _ _⟩
    rw [hsome, if_neg Bool.false_ne_true]
    exact List.mem_cons_of_mem _ (List.mem_map_of_mem hentry)

/-- The source of a wrapper imports the converters of collections if and only if one of the conversions
that it is written with uses one, and ordered maps if and only if one of them makes such a map. It
imports nothing else. That is so for types of any nesting, among them those of parameters. -/
theorem imports_needed (o : Outline) :
    (∀ x ∈ o.conversions, Within x.render o.file.content) ∧
    ∀ line : String, .line line ∈ o.sourceFile.fragments ∧ "import ".toList <+: line.toList ↔
      line = "import scala.jdk.CollectionConverters._" ∧
          (∃ x ∈ o.conversions, x.usesConverters = true) ∨
        line = "import scala.collection.immutable.ListMap" ∧
          ∃ x ∈ o.conversions, x.usesListMap = true := by
  refine ⟨fun x hx => within_content_of_conversion hx, fun line => ?_⟩
  have hconverters : importLine "scala.jdk.CollectionConverters" [ImportTable.wildcard] =
      "import scala.jdk.CollectionConverters._" := by decide
  have hlistMap : importLine "scala.collection.immutable" ["ListMap"] =
      "import scala.collection.immutable.ListMap" := by decide
  rw [import_mem_fragments_iff, imports_sourceFile, ← List.any_eq_true, ← List.any_eq_true,
    ← hconverters, ← hlistMap]
  cases o.conversions.any Expression.usesConverters <;>
    cases o.conversions.any Expression.usesListMap <;> simp

end Outline

end Facade.Scala
