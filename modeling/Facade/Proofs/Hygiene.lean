import Facade.Proofs.Independence
import Facade.Proofs.Outline.Names

/-!
This module contains the proofs about names that hide others: which terms the bodies of members use by
their simple names, and just when one of them is the name of a member.
-/

namespace Facade.Scala

open Text Host Outcome

def headOf (path : String) : String :=
  String.ofList (path.toList.takeWhile (· != '.'))

theorem headOf_append_dot {name : String} (h : '.' ∉ name.toList) {rest : String}
    (hrest : rest.toList.head? = some '.') : headOf (name ++ rest) = name := by
  obtain ⟨tail, hdot⟩ := List.head?_eq_some_iff.mp hrest
  have hname : ∀ c ∈ name.toList, (c != '.') = true := by
    intro c hc
    rw [bne_iff_ne]
    rintro rfl
    exact h hc
  rw [headOf, String.toList_append, hdot, List.takeWhile_append_of_pos hname, List.takeWhile_cons,
    if_neg (by decide), List.append_nil, String.ofList_toList]

namespace Expression

def companions : Expression → List String
  | code _ => []
  | select value _ => value.companions
  | call function value => headOf function :: value.companions
  | create _ value => value.companions
  | mapElements collection _ body => collection.companions ++ body.companions
  | mapEntries entries _ _ keyBody valueBody =>
    entries.companions ++ (keyBody.companions ++ valueBody.companions)

theorem companions_traversal (collection : Expression) :
    collection.traversal.companions = collection.companions := by
  unfold traversal
  split <;> rfl

theorem companions_convertElements (collection : Expression) (depth : Nat)
    (convert : Expression → Expression) :
    (collection.convertElements depth convert).companions =
      collection.companions ++ (convert (code s!"e{depth}")).companions := by
  unfold convertElements
  dsimp only
  split
  . next hsame => rw [hsame, companions, List.append_nil]
  . rw [companions, companions_traversal]

theorem companions_convertEntries (entries : Expression) (depth : Nat)
    (convertKey convertValue : Expression → Expression) :
    (entries.convertEntries depth convertKey convertValue).companions =
      entries.companions ++ ((convertKey (code s!"k{depth}")).companions ++
        (convertValue (code s!"v{depth}")).companions) := by
  unfold convertEntries
  dsimp only
  split
  . next hsame => rw [hsame.1, hsame.2, companions, companions, List.append_nil, List.append_nil]
  . rw [companions, companions_traversal]

end Expression

namespace ScalaType

/-- The companions that scalars of a type are put into boxes by. -/
def boxes : ScalaType → List String
  | scalar s boxed => if boxed && s.isPrimitive then [scalarName s] else []
  | enumeration _ _ => []
  | wrapper _ _ => []
  | external _ => []
  | list element => element.boxes
  | set element => element.boxes
  | map key value => key.boxes ++ value.boxes
  | option value => value.boxes

def makers : ScalaType → List String
  | scalar _ _ => []
  | enumeration name _ => [headOf (name ++ ".fromJava")]
  | wrapper _ _ => []
  | external _ => []
  | list element => element.makers
  | set element => element.makers
  | map key value => "ListMap" :: (key.makers ++ value.makers)
  | option value => "Option" :: value.makers

end ScalaType

theorem headOf_box (s : Scalar) : headOf (scalarName s ++ ".box") = scalarName s := by
  cases s <;> rfl

theorem companions_toHostAt (type : ScalaType) (depth : Nat) (x : Expression) :
    (toHostAt type depth x).companions.Perm (x.companions ++ type.boxes) := by
  induction type generalizing depth x with
  | scalar s boxed =>
    rw [toHostAt, ScalaType.boxes]
    split
    . rw [Expression.companions, headOf_box]
      exact List.perm_append_singleton _ _ |>.symm
    . rw [List.append_nil]
  | enumeration => simp [toHostAt, ScalaType.boxes, Expression.companions]
  | wrapper => simp [toHostAt, ScalaType.boxes, Expression.companions]
  | external => simp [toHostAt, ScalaType.boxes]
  | list element ih | set element ih | option element ih =>
    rw [toHostAt, ScalaType.boxes, Expression.companions, Expression.companions_convertElements]
    exact (ih _ _).append_left _
  | map key value ihk ihv =>
    rw [toHostAt, ScalaType.boxes, Expression.companions, Expression.companions_convertEntries]
    exact ((ihk _ _).append (ihv _ _)).append_left _

theorem companions_fromHostAt (type : ScalaType) (depth : Nat) (x : Expression) :
    (fromHostAt type depth x).companions.Perm (x.companions ++ type.makers) := by
  induction type generalizing depth x with
  | scalar s boxed =>
    rw [fromHostAt, ScalaType.makers, List.append_nil]
    split <;> rfl
  | external => simp [fromHostAt, ScalaType.makers]
  | wrapper => simp [fromHostAt, ScalaType.makers, Expression.companions]
  | enumeration =>
    rw [fromHostAt, ScalaType.makers, Expression.companions]
    exact (List.perm_append_singleton _ _).symm
  | list element ih | set element ih =>
    rw [fromHostAt, ScalaType.makers, Expression.companions,
      Expression.companions_convertElements]
    exact (ih _ _).append_left _
  | option value ih =>
    have hhead : headOf "Option" = "Option" := rfl
    rw [fromHostAt, ScalaType.makers, Expression.companions_convertElements,
      Expression.companions, hhead, List.cons_append]
    exact (((ih _ _).append_left _).cons _).trans List.perm_middle.symm
  | map key value ihk ihv =>
    have hhead : headOf "ListMap.from" = "ListMap" := rfl
    rw [fromHostAt, ScalaType.makers, Expression.companions,
      Expression.companions_convertEntries, hhead]
    exact ((((ihk _ _).append (ihv _ _)).append_left _).cons _).trans List.perm_middle.symm

namespace ScalaType

/-- The wrappers of enumerations that a type refers to, as it refers to them. -/
def enumerations (type : ScalaType) : List String :=
  type.wrappers.filterMap fun
    | enumeration name _ => some name
    | _ => none

theorem mem_enumerations {type : ScalaType} {name : String} :
    name ∈ type.enumerations ↔ ∃ qualified, enumeration name qualified ∈ type.wrappers := by
  rw [enumerations, List.mem_filterMap]
  constructor
  . rintro ⟨w, hw, hname⟩
    split at hname
    . cases hname
      exact ⟨_, hw⟩
    . cases hname
  . rintro ⟨qualified, hw⟩
    exact ⟨_, hw, rfl⟩

theorem enumerations_map (key value : ScalaType) :
    (map key value).enumerations = key.enumerations ++ value.enumerations := by
  rw [enumerations, wrappers, List.filterMap_append]
  rfl

theorem mem_makers_of_mem_enumerations {type : ScalaType} {name : String}
    (h : name ∈ type.enumerations) : headOf (name ++ ".fromJava") ∈ type.makers := by
  induction type with
  | scalar | external | wrapper => cases h
  | enumeration =>
    rw [List.mem_singleton.mp h]
    exact List.mem_cons_self
  | list element ih | set element ih => exact ih h
  | option value ih => exact List.mem_cons_of_mem _ (ih h)
  | map key value ihk ihv =>
    rw [enumerations_map] at h
    apply List.mem_cons_of_mem
    obtain h | h := List.mem_append.mp h
    . exact List.mem_append_left _ (ihk h)
    . exact List.mem_append_right _ (ihv h)

theorem cases_of_mem_makers {type : ScalaType} {term : String} (h : term ∈ type.makers) :
    term ∈ standardTypes ∨ ∃ name ∈ type.enumerations, term = headOf (name ++ ".fromJava") := by
  induction type with
  | scalar | external | wrapper => cases h
  | enumeration name => exact .inr ⟨name, List.mem_cons_self, List.mem_singleton.mp h⟩
  | list element ih | set element ih => exact ih h
  | option value ih =>
    obtain rfl | h := List.mem_cons.mp h
    . exact .inl (by decide)
    . exact ih h
  | map key value ihk ihv =>
    rw [enumerations_map]
    obtain rfl | h := List.mem_cons.mp h
    . exact .inl (by decide)
    obtain h | h := List.mem_append.mp h
    . obtain h | ⟨name, hname, hterm⟩ := ihk h
      . exact .inl h
      . exact .inr ⟨name, List.mem_append_left _ hname, hterm⟩
    . obtain h | ⟨name, hname, hterm⟩ := ihv h
      . exact .inl h
      . exact .inr ⟨name, List.mem_append_right _ hname, hterm⟩

theorem mem_standardTypes_of_mem_boxes {type : ScalaType} {term : String} (h : term ∈ type.boxes) :
    term ∈ standardTypes := by
  induction type with
  | enumeration | external | wrapper => cases h
  | scalar s boxed =>
    rw [boxes] at h
    split at h
    . rw [List.mem_singleton.mp h]
      cases s <;> decide
    . cases h
  | list element ih | set element ih | option element ih => exact ih h
  | map key value ihk ihv =>
    obtain h | h := List.mem_append.mp h
    . exact ihk h
    . exact ihv h

end ScalaType

namespace ClassWrapper

open Outline

def getterValue (g : Getter) : Expression :=
  fromHost g.type.target (.code ("underlying." ++ escapePath g.hostMethod ++ "()"))

def setterValue (s : Setter) : Expression :=
  toHost s.type.target (.code assigned)

def parameterValue (p : Parameter) : Expression :=
  toHost p.type.target (.code p.name)

def caught (exceptions : List String) : List String :=
  if exceptions.isEmpty then [] else ["Right", "Left"]

/-- The companions that the bodies of members use by their simple names. -/
def memberTerms (getters : List Getter) (setters : List Setter) : List String :=
  getters.flatMap (fun g => (getterValue g).companions ++ caught g.throws) ++
    setters.flatMap (fun s => (setterValue s).companions ++ caught s.throws) ++
    if (compared getters).isEmpty then [] else ["Seq"]

/--
Whether no companion that a body uses is hidden. The members are known in the bodies of all members, but
a constructor calls another one outside of the class, where only its parameters are known.
-/
structure Hygienic (constructors : List Constructor) (getters : List Getter)
    (setters : List Setter) : Prop where
  members : ∀ name ∈ getters.map Getter.name ++ setters.map Setter.name,
    name ∉ memberTerms getters setters
  parameters : ∀ k ∈ constructors, ∀ p ∈ k.parameters, ∀ q ∈ k.parameters,
    p.name ∉ (parameterValue q).companions

instance (constructors : List Constructor) (getters : List Getter) (setters : List Setter) :
    Decidable (Hygienic constructors getters setters) :=
  decidable_of_iff (_ ∧ _) ⟨fun h => ⟨h.1, h.2⟩, fun h => ⟨h.members, h.parameters⟩⟩

-- The definitions of members are written from these values, and from nothing else that is a term.

theorem getterDef_eq (g : Getter) : getterDef g =
    fallible
      { name := g.name
        doc := if g.field.isNone then ["Computed by `" ++ g.hostMethod ++ "()`."] else [] }
      g.type.target.render (getterValue g).render g.throws := rfl

theorem setterDef_eq (s : Setter) : setterDef s =
    fallible { name := s.name, params := some [{ name := assigned, type := s.type.target.render }] }
      "Unit" ("underlying." ++ escapePath s.hostMethod ++ "(" ++ (setterValue s).render ++ ")")
      s.throws := rfl

theorem constructorDef_eq (host : String) (c : Constructor) : constructorDef host c =
    Def.withExpression
      ("this(new " ++ host ++ "(" ++
        ", ".intercalate (c.parameters.map fun p => (parameterValue p).render) ++ "))")
      (.constructor (c.parameters.map fun p => { name := p.name, type := p.type.target.render })) :=
  rfl

section

variable {getters : List Getter} {setters : List Setter} {term : String}

theorem cases_of_mem_memberTerms (h : term ∈ memberTerms getters setters) :
    term ∈ standardTypes ∨ ∃ g ∈ getters, ∃ name ∈ g.type.target.enumerations,
      term = headOf (name ++ ".fromJava") := by
  have hcaught : ∀ exceptions, term ∈ caught exceptions → term ∈ standardTypes := by
    intro exceptions hterm
    unfold caught at hterm
    split at hterm
    . cases hterm
    . have hstandard : ∀ companion ∈ ["Right", "Left"], companion ∈ standardTypes := by decide
      exact hstandard term hterm
  simp only [memberTerms, List.mem_append, List.mem_flatMap] at h
  obtain (⟨g, hg, h | h⟩ | ⟨s, hs, h | h⟩) | h := h
  . rw [getterValue, fromHost, (companions_fromHostAt _ _ _).mem_iff] at h
    obtain h | ⟨name, hname, hterm⟩ := ScalaType.cases_of_mem_makers h
    . exact .inl h
    . exact .inr ⟨g, hg, name, hname, hterm⟩
  . exact .inl (hcaught _ h)
  . rw [setterValue, toHost, (companions_toHostAt _ _ _).mem_iff] at h
    exact .inl (ScalaType.mem_standardTypes_of_mem_boxes h)
  . exact .inl (hcaught _ h)
  . split at h
    . cases h
    . rw [List.mem_singleton.mp h]
      exact .inl (by decide)

theorem mem_memberTerms_of_mem_enumerations (setters : List Setter) {g : Getter}
    (hg : g ∈ getters) {name : String} (h : name ∈ g.type.target.enumerations) :
    headOf (name ++ ".fromJava") ∈ memberTerms getters setters := by
  apply List.mem_append_left
  apply List.mem_append_left
  refine List.mem_flatMap.mpr ⟨g, hg, List.mem_append_left _ ?_⟩
  rw [getterValue, fromHost, (companions_fromHostAt _ _ _).mem_iff]
  exact ScalaType.mem_makers_of_mem_enumerations h

end

end ClassWrapper

section

variable {entry : Catalog.Entry} {package : String}

/-- The wrapper of a class is referred to from the root, or in its own package by its simple name. -/
theorem headOf_reference (hdot : '.' ∉ entry.name.toList) :
    headOf (reference entry package ++ ".fromJava") =
      if entry.package = package then reference entry package else "_root_" := by
  unfold reference
  dsimp only
  split
  . apply headOf_append_dot _ rfl
    cases hsafe : safeName? entry.name with
    | none => exact hdot
    | some safe => exact dot_not_mem_of_safeName? hsafe
  . have hroot : rootStart = "_root_" ++ "." := by decide
    rw [hroot, String.append_assoc, String.append_assoc, String.append_assoc, String.append_assoc]
    exact headOf_append_dot (by decide) (by rw [String.toList_append]; rfl)

theorem head?_reference {name : String} (hname : entry.name = pascalCase name)
    (hpackage : entry.package = package) {small : Char} (hsmall : upper small ≠ [small]) :
    (reference entry package).toList.head? ≠ some small := by
  have hpascal : entry.name.toList.head? ≠ some small := by
    intro hhead
    obtain ⟨rest, hrest⟩ := List.head?_eq_some_iff.mp hhead
    -- A name in pascal case is its own capitalization, but a small letter has another one for a capital.
    have hcapital : capitalize entry.name.toList = entry.name.toList := by
      rw [hname, pascalCase, String.toList_ofList, capitalize_flatMap]
    rw [hrest, capitalize] at hcapital
    exact hsmall (@List.append_cancel_right _ _ rest [small] hcapital)
  unfold reference
  dsimp only
  rw [if_pos hpackage]
  cases hsafe : safeName? entry.name with
  | none => exact hpascal
  | some safe =>
    obtain ⟨-, rfl⟩ | ⟨-, -, rfl⟩ := safeName?_cases hsafe
    . rw [Option.getD_some, escaped, String.toList_append, String.toList_append]
      have htick : '`' ≠ small := by
        rintro rfl
        exact hsmall rfl
      simpa using htick
    . exact hpascal

end

section

variable {settings : Settings} {markers : Settings.Markers} {enums : List String}
variable {records : List Record} {r : Record} {c : HostClass} {catalog : Catalog} {o : Outline}
variable {constructors : List Outline.Constructor} {getters : List Outline.Getter}
variable {setters : List Outline.Setter}

open ClassWrapper

theorem constants_of_ofClass {constants : List Outline.Constant}
    (houtline : Outline.ofClass catalog c = .ok o) (hbody : o.body = .enumeration constants) :
    c.isEnum = true ∧
      Outline.constants (NamePool.members.reserve Outline.companionMembers) c.constants =
        .ok constants := by
  obtain ⟨entry, name, -, -, hof, -⟩ := Outline.ofClass_cases houtline
  rw [hbody] at hof
  obtain ⟨henum, cs, hof, hconstants⟩ | ⟨-, hof⟩ := Outline.bodyOf_cases hof
  . cases hof
    exact ⟨henum, hconstants⟩
  . obtain ⟨ks, bound, computed, ss, hmembers, -⟩ := Outline.members_outline hof
    cases hmembers

theorem spelled_of_ofClass (houtline : Outline.ofClass catalog c = .ok o)
    (hbody : o.body = .members constructors getters setters) :
    c.isEnum = false ∧ Outline.Spelled c constructors getters setters := by
  obtain ⟨entry, name, -, -, hof, -⟩ := Outline.ofClass_cases houtline
  rw [hbody] at hof
  obtain ⟨-, constants, hof, -⟩ | ⟨hclass, hof⟩ := Outline.bodyOf_cases hof
  . cases hof
  . exact ⟨hclass, Outline.spelled_of_members hof⟩

theorem named_of_ofClass (houtline : Outline.ofClass catalog c = .ok o)
    (hbody : o.body = .members constructors getters setters) :
    c.isEnum = false ∧ Outline.Named c getters setters :=
  (spelled_of_ofClass houtline hbody).imp id Outline.Spelled.named

theorem not_mem_standardTypes_of_named (hdescribe : Record.describe markers enums r = .ok c)
    (hclass : c.isEnum = false) (h : Outline.Named c getters setters) :
    (∀ g ∈ getters, g.name ∉ standardTypes) ∧
      ∀ s ∈ setters, s.name ∉ standardTypes ∧ s.name.toList.head? = some 's' := by
  have hrecord := Record.isEnum_of_describe hdescribe hclass
  constructor
  . intro g hg
    obtain ⟨f, hf, hgetter, hnamed⟩ | ⟨m, -, hnamed⟩ := h.getters g hg
    . exact hnamed.not_mem_standardTypes
        (Record.decapitalized_of_hasGetter hrecord hdescribe hf hgetter)
    . exact hnamed.not_mem_standardTypes (Record.decapitalized_propertyOf m)
  . intro s hs
    obtain ⟨f, hf, -, m, hm, hnamed⟩ := h.setters s hs
    obtain ⟨rest, hset⟩ := Record.set_of_setterFor? hrecord hdescribe hf hm
    have hhead := hnamed.head?_of_set hset
    have hstandard : ∀ type ∈ standardTypes, type.toList.head? ≠ some 's' := by decide
    exact ⟨fun hmem => hstandard _ hmem hhead, hhead⟩

theorem exists_entry_of_mem_enumerations (hfrom : catalog.ComesFrom settings enums records)
    (houtline : Outline.ofClass catalog c = .ok o) {type : Outline.MemberType}
    (htype : type ∈ o.memberTypes) {name : String} (h : name ∈ type.target.enumerations) :
    ∃ entry : Catalog.Entry, ∃ simple, entry.name = pascalCase simple ∧ '.' ∉ entry.name.toList ∧
      name = reference entry o.package := by
  obtain ⟨qualified, hwrapper⟩ := ScalaType.mem_enumerations.mp h
  obtain ⟨className, entry, hentry, hwrapper⟩ :=
    Outline.denotes_of_mem_memberTypes houtline htype (.inr hwrapper)
  obtain ⟨r', -, c', -, -, hof⟩ := hfrom className entry hentry
  have hname : entry.name = pascalCase c'.simpleName := by rw [hof, Catalog.Entry.ofClass]
  refine ⟨entry, c'.simpleName, hname, ?_, ?_⟩
  . rw [hname]
    exact dot_not_mem_pascalCase (dot_not_mem_simpleNameOf _)
  . unfold wrapperType at hwrapper
    split at hwrapper
    . exact (ScalaType.enumeration.inj hwrapper).1
    . cases hwrapper

theorem not_mem_memberTerms (hdescribe : Record.describe markers enums r = .ok c)
    (hfrom : catalog.ComesFrom settings enums records) (houtline : Outline.ofClass catalog c = .ok o)
    (hbody : o.body = .members constructors getters setters)
    (h : ∀ g ∈ getters, ∀ g' ∈ getters, g.name ∉ g'.type.target.enumerations) {name : String}
    (hmember : (∃ g ∈ getters, g.name = name) ∨ ∃ s ∈ setters, s.name = name) :
    name ∉ memberTerms getters setters := by
  obtain ⟨hclass, hnamed⟩ := named_of_ofClass houtline hbody
  obtain ⟨hgetters, hsetters⟩ := not_mem_standardTypes_of_named hdescribe hclass hnamed
  intro hterm
  -- A term that is used is a standard type, which no member is named for, or it is what the reference
  -- to an enumeration starts with: the wrapper of the enumeration, or the package of all packages.
  obtain hstandard | ⟨g', hg', wrapper, hwrapper, hhead⟩ := cases_of_mem_memberTerms hterm
  . obtain ⟨g, hg, rfl⟩ | ⟨s, hs, rfl⟩ := hmember
    . exact hgetters g hg hstandard
    . exact (hsetters s hs).1 hstandard
  have htype : g'.type ∈ o.memberTypes := by
    rw [Outline.memberTypes, hbody]
    exact List.mem_append_left _ (List.mem_append_right _ (List.mem_map_of_mem hg'))
  obtain ⟨entry, simple, hentry, hdot, rfl⟩ :=
    exists_entry_of_mem_enumerations hfrom houtline htype hwrapper
  rw [headOf_reference hdot] at hhead
  split at hhead
  . next hpackage =>
    obtain ⟨g, hg, rfl⟩ | ⟨s, hs, rfl⟩ := hmember
    . rw [← hhead] at hwrapper
      exact h g hg g' hg' hwrapper
    . have hlower := (hsetters s hs).2
      rw [hhead] at hlower
      exact head?_reference hentry hpackage (by decide) hlower
  . obtain ⟨free, hsafe⟩ := hnamed.exists_safeName? hmember
    exact ne_root_of_safeName? hsafe hhead

/-- The members of a class hide no companion but those of enumerations in the package of its wrapper. -/
theorem hygienic_iff_of_ofClass (hdescribe : Record.describe markers enums r = .ok c)
    (hfrom : catalog.ComesFrom settings enums records) (houtline : Outline.ofClass catalog c = .ok o)
    (hbody : o.body = .members constructors getters setters) :
    Hygienic constructors getters setters ↔
      (∀ g ∈ getters, ∀ g' ∈ getters, g.name ∉ g'.type.target.enumerations) ∧
      ∀ k ∈ constructors, ∀ p ∈ k.parameters, ∀ q ∈ k.parameters,
        p.name ∉ q.type.target.boxes := by
  obtain ⟨-, hnamed⟩ := named_of_ofClass houtline hbody
  have hboxes : ∀ q : Outline.Parameter, ∀ term,
      term ∈ (parameterValue q).companions ↔ term ∈ q.type.target.boxes := fun q term =>
    (companions_toHostAt _ _ _).mem_iff
  constructor
  . intro h
    refine ⟨fun g hg g' hg' hmem => ?_, fun k hk p hp q hq => ?_⟩
    -- A getter's name has no dot, so an enumeration of this name has it for a companion as a whole.
    . obtain ⟨free, hsafe⟩ := hnamed.exists_safeName? (.inl ⟨g, hg, rfl⟩)
      have hterm := mem_memberTerms_of_mem_enumerations setters hg' hmem
      rw [headOf_append_dot (dot_not_mem_of_safeName? hsafe) rfl] at hterm
      exact h.members g.name (List.mem_append_left _ (List.mem_map_of_mem hg)) hterm
    . rw [← hboxes]
      exact h.parameters k hk p hp q hq
  . rintro ⟨henumerations, hparameters⟩
    refine ⟨fun name hname => ?_, fun k hk p hp q hq => ?_⟩
    . exact not_mem_memberTerms hdescribe hfrom houtline hbody henumerations (by simpa using hname)
    . rw [hboxes]
      exact hparameters k hk p hp q hq

end

end Facade.Scala

namespace Facade.Batch

open Data Host Outcome Scala

/--
In the wrapper of a class, no companion is hidden unless a getter has the name of an enumeration that
one of them reads from the package of the wrapper, or a parameter has that of a scalar which the same
constructor puts into a box.
-/
theorem hygienic_iff {settings : Settings} {records : List Record} {result : Result}
    (h : Yields settings records result) {name : String} {file : GeneratedFile}
    (hmem : (name, file) ∈ result.generated) :
    ∃ r ∈ records, ∃ c catalog outline,
      Record.describe settings.markers (Record.enumNames records) r = .ok c ∧ c.name = name ∧
      Outline.ofClass catalog c = .ok outline ∧ file = outline.file ∧
      ∀ constructors getters setters, outline.body = .members constructors getters setters →
        (ClassWrapper.Hygienic constructors getters setters ↔
          (∀ g ∈ getters, ∀ g' ∈ getters, g.name ∉ g'.type.target.enumerations) ∧
          ∀ k ∈ constructors, ∀ p ∈ k.parameters, ∀ q ∈ k.parameters,
            p.name ∉ q.type.target.boxes) := by
  obtain ⟨r, hr, c, catalog, outline, hdescribe, hname, hfrom, houtline, hfile⟩ :=
    h.outline_of_mem hmem
  refine ⟨r, hr, c, catalog, outline, hdescribe, hname, houtline, hfile, ?_⟩
  intro constructors getters setters hbody
  exact hygienic_iff_of_ofClass hdescribe hfrom houtline hbody

def hostRecord : Record :=
  Report.readerRecord "p.Host" [("getOS", "p.OS")]

def systemRecords : List Record :=
  [hostRecord, enumRecord "p.OS" ["LINUX"]]

def hostFile : GeneratedFile where
  path := "p/wrappers/Host.scala"
  content := String.join ([
    "// Code generated by wrapgen. DO NOT EDIT.",
    "// Source: p.Host",
    "",
    "package p.wrappers",
    "",
    "final class Host(val underlying: _root_.p.Host) \x7b",
    "  /** Computed by `getOS()`. */",
    "  def OS: Option[OS] = Option(underlying.getOS()).map(e0 => OS.fromJava(e0))",
    "",
    "  override def equals(other: Any): Boolean = other match \x7b",
    "    case that: Host => this.OS == that.OS",
    "    case _ => false",
    "  \x7d",
    "",
    "  override def hashCode(): Int = Seq[Any](OS).##",
    "",
    "  override def toString: String = s\"Host(OS=$\x7bOS\x7d)\"",
    "\x7d"
  ].map (· ++ "\n"))

set_option maxRecDepth 10000 in
theorem exists_yields_hostFile :
    ∃ result, Yields Settings.standard systemRecords result ∧
      result.generated.lookup "p.Host" = some hostFile := by
  have houtcome : (outcomeOf Settings.standard systemRecords).map (fun result =>
      result.generated.lookup "p.Host") = .ok (some hostFile) := by decide +kernel
  exact exists_yields_of_map houtcome

theorem hygienic_iff_host :
    ∃ result file, Yields Settings.standard systemRecords result ∧
      ("p.Host", file) ∈ result.generated ∧
      ∃ r ∈ systemRecords, ∃ c catalog outline,
        Record.describe Settings.standard.markers (Record.enumNames systemRecords) r = .ok c ∧
        c.name = "p.Host" ∧ Outline.ofClass catalog c = .ok outline ∧ file = outline.file ∧
        ∀ constructors getters setters, outline.body = .members constructors getters setters →
          (ClassWrapper.Hygienic constructors getters setters ↔
            (∀ g ∈ getters, ∀ g' ∈ getters, g.name ∉ g'.type.target.enumerations) ∧
            ∀ k ∈ constructors, ∀ p ∈ k.parameters, ∀ q ∈ k.parameters,
              p.name ∉ q.type.target.boxes) := by
  obtain ⟨result, hyields, hfile⟩ := exists_yields_hostFile
  obtain ⟨before, after, heq, -⟩ := List.lookup_eq_some_iff.mp hfile
  have hmem : ("p.Host", hostFile) ∈ result.generated := by simp [heq]
  exact ⟨result, hostFile, hyields, hmem, hygienic_iff hyields hmem⟩

def hidesCompanion : Outline.Body → Bool
  | .enumeration _ => false
  | .members constructors getters setters =>
    !decide (ClassWrapper.Hygienic constructors getters setters)

set_option maxRecDepth 10000 in
/-- The getter for `OS` hides the companion that its own value is made by. -/
theorem companion_hidden :
    ∃ result c outline constructors getters setters,
      Yields Settings.standard systemRecords result ∧
      result.generated.lookup "p.Host" = some hostFile ∧
      Record.describe Settings.standard.markers (Record.enumNames systemRecords) hostRecord =
        .ok c ∧
      Outline.ofClass (Generator.ofRecords Settings.standard (Record.enumNames systemRecords)
        systemRecords).catalog c = .ok outline ∧
      outline.file = hostFile ∧ outline.body = .members constructors getters setters ∧
      ¬ ClassWrapper.Hygienic constructors getters setters := by
  obtain ⟨result, hyields, hfile⟩ := exists_yields_hostFile
  have hhides : (Record.describe Settings.standard.markers (Record.enumNames systemRecords)
      hostRecord).toOption.any (fun c =>
        (Outline.ofClass (Generator.ofRecords Settings.standard (Record.enumNames systemRecords)
          systemRecords).catalog c).toOption.any fun outline =>
            outline.file = hostFile && hidesCompanion outline.body) = true := by decide +kernel
  obtain ⟨c, hdescribe, hhides⟩ := (Option.any_eq_true _ _).mp hhides
  obtain ⟨outline, houtline, hhides⟩ := (Option.any_eq_true _ _).mp hhides
  rw [Bool.and_eq_true, decide_eq_true_eq] at hhides
  rw [toOption_eq_some_iff] at hdescribe houtline
  cases hbody : outline.body with
  | enumeration constants =>
    rw [hbody] at hhides
    cases hhides.2
  | members constructors getters setters =>
    rw [hbody] at hhides
    exact ⟨result, c, outline, constructors, getters, setters, hyields, hfile, hdescribe, houtline,
      hhides.1, hbody, by simpa [hidesCompanion] using hhides.2⟩

end Facade.Batch
