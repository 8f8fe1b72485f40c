import Facade.Proofs.Binding.Outlined
import Facade.Proofs.Constants
import Facade.Proofs.Hygiene
import Facade.Proofs.Source.Written

/-!
This module contains the proofs about what the source of a wrapper is written with: the paths of packages,
classes and exceptions, and the names of standard types.
-/

namespace Facade.Scala

open Text Host Outcome Source

def simpleException? (qualified : String) : Option String :=
  match dropStart? "java.lang.".toList qualified.toList with
  | some simple => if simple.contains '.' then none else some (String.ofList simple)
  | none => none

theorem simpleException?_eq_some {qualified simple : String} :
    simpleException? qualified = some simple ↔
      qualified = "java.lang." ++ simple ∧ '.' ∉ simple.toList := by
  unfold simpleException?
  constructor
  . intro h
    split at h
    . next rest hrest =>
      split at h
      . cases h
      . next hdot =>
        cases h
        refine ⟨?_, by simpa using hdot⟩
        rw [← String.toList_inj, dropStart?_eq_some hrest]
        simp
    . cases h
  . rintro ⟨rfl, hdot⟩
    rw [String.toList_append, dropStart?_append]
    dsimp only
    rw [if_neg (by simpa using hdot), String.ofList_toList]

theorem exceptionReference_eq (qualified : String) :
    exceptionReference qualified = (simpleException? qualified).getD (hostReference qualified) := by
  unfold exceptionReference simpleException?
  cases dropStart? "java.lang.".toList qualified.toList with
  | none => rfl
  | some simple =>
    dsimp only
    split <;> rfl

namespace ScalaType

def standardNames : ScalaType → List String
  | scalar s _ => [scalarName s]
  | enumeration _ _ => []
  | wrapper _ _ => []
  | external _ => []
  | list element => "List" :: element.standardNames
  | set element => "Set" :: element.standardNames
  | map key value => "Map" :: (key.standardNames ++ value.standardNames)
  | option value => "Option" :: value.standardNames

def collectors : ScalaType → List String
  | scalar _ _ => []
  | enumeration _ _ => []
  | wrapper _ _ => []
  | external _ => []
  | list element => element.collectors
  | set element => element.collectors
  | map key value => "ListMap" :: (key.collectors ++ value.collectors)
  | option value => "Option" :: value.collectors

/-- A value is made by standard companions and by those of enumerations. -/
theorem makers_perm (type : ScalaType) : type.makers.Perm
    (type.collectors ++ type.enumerations.map fun name => headOf (name ++ ".fromJava")) := by
  induction type with
  | scalar | external | wrapper | enumeration => exact .rfl
  | list element ih | set element ih => exact ih
  | option value ih => exact ih.cons _
  | map key value ihk ihv =>
    rw [makers, collectors, enumerations_map, List.map_append, List.cons_append]
    apply List.Perm.cons
    rw [List.perm_iff_count]
    intro term
    have hkey := ihk.count_eq term
    have hvalue := ihv.count_eq term
    simp only [List.count_append] at hkey hvalue ⊢
    omega

theorem standardNames_subset (type : ScalaType) : type.standardNames ⊆ standardTypes := by
  induction type with
  | scalar s =>
    have hscalars : ∀ s, [scalarName s] ⊆ standardTypes := by
      intro s
      cases s <;> decide
    exact hscalars s
  | enumeration | wrapper | external => exact List.nil_subset _
  | list element ih | set element ih | option element ih =>
    exact List.cons_subset.mpr ⟨by decide, ih⟩
  | map key value ihk ihv =>
    exact List.cons_subset.mpr ⟨by decide, List.append_subset.mpr ⟨ihk, ihv⟩⟩

theorem collectors_subset (type : ScalaType) : type.collectors ⊆ standardTypes := by
  induction type with
  | scalar | enumeration | wrapper | external => exact List.nil_subset _
  | list element ih | set element ih => exact ih
  | option value ih => exact List.cons_subset.mpr ⟨by decide, ih⟩
  | map key value ihk ihv =>
    exact List.cons_subset.mpr ⟨by decide, List.append_subset.mpr ⟨ihk, ihv⟩⟩

theorem within_map {part : String} {key value : ScalaType}
    (h : Within part key.render ∨ Within part value.render) :
    Within part (map key value).render := by
  obtain h | h := h
  . exact (((h.back _).front _).front _).front _
  . exact (h.back _).front _

theorem within_of_mem_wrappers {type w : ScalaType} (h : w ∈ type.wrappers) :
    Within w.render type.render := by
  induction type with
  | scalar | external => cases h
  | enumeration | wrapper =>
    rw [List.mem_singleton.mp h]
    exact .rfl
  | list element ih | set element ih | option element ih => exact ((ih h).back _).front _
  | map key value ihk ihv =>
    obtain h | h := List.mem_append.mp h
    . exact within_map (.inl (ihk h))
    . exact within_map (.inr (ihv h))

theorem within_of_mem_standardNames {type : ScalaType} {name : String}
    (h : name ∈ type.standardNames) : Within name type.render := by
  induction type with
  | enumeration | wrapper | external => cases h
  | scalar =>
    rw [List.mem_singleton.mp h]
    exact .rfl
  | list element ih | set element ih | option element ih =>
    obtain rfl | h := List.mem_cons.mp h
    . exact ((Within.rfl.front "[").front _).front _
    . exact ((ih h).back _).front _
  | map key value ihk ihv =>
    obtain rfl | h := List.mem_cons.mp h
    . have hmap : Within "Map" "Map[" := Within.rfl.front "["
      exact (((hmap.front _).front _).front _).front _
    obtain h | h := List.mem_append.mp h
    . exact within_map (.inl (ihk h))
    . exact within_map (.inr (ihv h))

end ScalaType

theorem Expression.within_of_mem_companions {e : Expression} {name : String}
    (h : name ∈ e.companions) : Within name e.render := by
  induction e with
  | code => cases h
  | select value member ih => exact ((ih h).front _).front _
  | create className value ih => exact ((ih h).back _).front _
  | call function value ih =>
    obtain rfl | h := List.mem_cons.mp h
    . have hhead : Within (headOf function) function := by
        rw [Within, headOf, String.toList_ofList]
        exact (List.takeWhile_prefix _).isInfix
      exact ((hhead.front _).front _).front _
    . exact ((ih h).back _).front _
  | mapElements collection element body ihc ihb =>
    obtain h | h := List.mem_append.mp h
    . rw [render]
      simp only [String.append_assoc]
      exact (ihc h).front _
    . exact ((ihb h).back _).front _
  | mapEntries entries key value keyBody valueBody ihe ihk ihv =>
    obtain h | h := List.mem_append.mp h
    . rw [render]
      simp only [String.append_assoc]
      exact (ihe h).front _
    obtain h | h := List.mem_append.mp h
    . exact ((((ihk h).back _).front _).front _).front _
    . exact ((ihv h).back _).front _

theorem writes_tryFragments (expression : String) (exceptions : List String) :
    Fragment.Writes (tryFragments expression exceptions) ("Right(" ++ expression ++ ")") ∧
      ∀ e ∈ exceptions,
        Fragment.Writes (tryFragments expression exceptions) ("case e: " ++ e ++ " => Left(e)") := by
  constructor
  . refine .of_mem List.mem_cons_self ((Fragment.Writes.line _).mono ?_)
    have htry : "try Right(" ++ expression ++ ")" = "try " ++ ("Right(" ++ expression ++ ")") := by
      rw [← String.append_assoc, ← String.append_assoc]
      rfl
    rw [htry]
    exact Within.rfl.back _
  . intro e he
    refine .of_mem (List.mem_cons_of_mem _ List.mem_cons_self) (.block ?_ _ _)
    exact .of_mem (List.mem_map_of_mem he) (.line _)

namespace ClassWrapper

open Outline

def thrownNames (exceptions : List String) : List String :=
  (if exceptions.isEmpty then [] else "Either" :: caught exceptions) ++
    (if 1 < exceptions.length then ["Throwable"] else []) ++ exceptions.filterMap simpleException?

theorem fallible_of_ne_nil {exceptions : List String} (h : exceptions ≠ []) (d : Def)
    (type value : String) : ∃ error,
    fallible d type value exceptions =
        { d with
          returns := some ("Either[" ++ error ++ ", " ++ type ++ "]")
          body := tryFragments value (exceptions.map exceptionReference) } ∧
      (1 < exceptions.length → error = "Throwable") := by
  cases exceptions with
  | nil => exact absurd rfl h
  | cons e rest =>
    cases rest with
    | nil => exact ⟨exceptionReference e, rfl, fun hmany => absurd hmany (by simp)⟩
    | cons e' rest => exact ⟨"Throwable", rfl, fun _ => rfl⟩

/-- What a method with a value is written with: its type, the value, and the exceptions. -/
structure WritesFallible (d : Def) (type value : String) (exceptions : List String) : Prop where
  type : Fragment.Writes d.fragments type
  value : Fragment.Writes d.fragments value
  references : ∀ e ∈ exceptions, Fragment.Writes d.fragments (exceptionReference e)
  names : ∀ name ∈ thrownNames exceptions, Fragment.Writes d.fragments name

theorem writes_thrownNames {d : Def} {error type value : String} {e : String} {rest : List String}
    (hreturns : d.returns = some ("Either[" ++ error ++ ", " ++ type ++ "]"))
    (hbody : d.body = tryFragments value ((e :: rest).map exceptionReference))
    (herror : 1 < (e :: rest).length → error = "Throwable") :
    ∀ name ∈ thrownNames (e :: rest), Fragment.Writes d.fragments name := by
  obtain ⟨hvalue, hcases⟩ := writes_tryFragments value ((e :: rest).map exceptionReference)
  rw [← hbody] at hvalue hcases
  rw [List.forall_mem_map] at hcases
  have hresult := (Def.writes_signature d).mono (Def.within_returns hreturns)
  intro name hname
  simp only [thrownNames, caught, List.isEmpty_cons, Bool.false_eq_true, if_false,
    List.mem_append, List.mem_cons, List.not_mem_nil, or_false, List.mem_filterMap] at hname
  obtain ((rfl | rfl | rfl) | hmany) | ⟨e', he', hsimple⟩ := hname
  . have heither : Within "Either" "Either[" := Within.rfl.front "["
    exact hresult.mono ((((heither.front _).front _).front _).front _)
  . have hright : Within "Right" "Right(" := Within.rfl.front "("
    exact Def.writes_body (hvalue.mono ((hright.front _).front _))
  -- the case of the first exception is enough to have this name written
  . have hleft : Within "Left" " => Left(e)" := (Within.rfl.front "(e)").back " => "
    exact Def.writes_body ((hcases e List.mem_cons_self).mono (hleft.back _))
  . split at hmany
    . next hlength =>
      rw [List.mem_singleton.mp hmany, ← herror hlength]
      exact hresult.mono ((((Within.rfl.back _).front _).front _).front _)
    . cases hmany
  . have hreference : exceptionReference e' = name := by
      rw [exceptionReference_eq, hsimple, Option.getD_some]
    rw [← hreference]
    exact Def.writes_body ((hcases e' (List.mem_cons.mpr he')).mono ((Within.rfl.back _).front _))

theorem writes_fallible (d : Def) (type value : String) (exceptions : List String) :
    WritesFallible (fallible d type value exceptions) type value exceptions := by
  cases exceptions with
  | nil =>
    constructor
    . exact (Def.writes_signature _).mono (Def.within_returns rfl)
    . exact Def.writes_body (.line value)
    . exact nofun
    . intro name hname
      have hnone : thrownNames [] = [] := rfl
      rw [hnone] at hname
      cases hname
  | cons e rest =>
    obtain ⟨error, hfallible, herror⟩ :=
      fallible_of_ne_nil (List.cons_ne_nil e rest) d type value
    obtain ⟨hvalue, hcases⟩ :=
      writes_tryFragments value ((e :: rest).map exceptionReference)
    rw [List.forall_mem_map] at hcases
    rw [hfallible]
    constructor
    . exact (Def.writes_signature _).mono
        (((Within.rfl.back _).front _).trans (Def.within_returns rfl))
    . exact Def.writes_body (hvalue.mono ((Within.rfl.back _).front _))
    . exact fun e' he' => Def.writes_body ((hcases e' he').mono ((Within.rfl.back _).front _))
    . exact writes_thrownNames rfl rfl herror

theorem writes_getterDef (g : Getter) :
    WritesFallible (getterDef g) g.type.target.render (getterValue g).render g.throws := by
  rw [getterDef_eq]
  exact writes_fallible _ _ _ _

theorem writes_setterDef (s : Setter) :
    WritesFallible (setterDef s) "Unit"
        ("underlying." ++ escapePath s.hostMethod ++ "(" ++ (setterValue s).render ++ ")") s.throws ∧
      Fragment.Writes (setterDef s).fragments s.type.target.render := by
  have hparams : (setterDef s).params =
      some [{ name := assigned, type := s.type.target.render }] := by
    rw [setterDef_eq]
    cases s.throws with
    | nil => rfl
    | cons e rest =>
      obtain ⟨error, hfallible, -⟩ := fallible_of_ne_nil (List.cons_ne_nil e rest)
        { name := s.name, params := some [{ name := assigned, type := s.type.target.render }] }
        "Unit" ("underlying." ++ escapePath s.hostMethod ++ "(" ++ (setterValue s).render ++ ")")
      rw [hfallible]
  refine ⟨?_, (Def.writes_signature _).mono ?_⟩
  . rw [setterDef_eq]
    exact writes_fallible _ _ _ _
  . exact (within_paramList (p := ⟨assigned, s.type.target.render, false⟩)
      List.mem_cons_self).trans (Def.within_params hparams)

theorem writes_constructorDef (host : String) {k : Constructor} {p : Parameter}
    (hp : p ∈ k.parameters) :
    Fragment.Writes (constructorDef host k).fragments p.type.target.render ∧
      Fragment.Writes (constructorDef host k).fragments (parameterValue p).render := by
  rw [constructorDef_eq]
  constructor
  . refine (Def.writes_signature _).mono ?_
    have hparam := within_paramList (List.mem_map_of_mem hp
      (f := fun p : Parameter => ({ name := p.name, type := p.type.target.render } : Param)))
    exact hparam.trans (Def.within_params rfl)
  . refine Def.writes_body ((Fragment.Writes.line _).mono ?_)
    have hvalue := Within.intercalate (List.mem_map_of_mem hp
      (f := fun p : Parameter => (parameterValue p).render)) ", "
    exact (hvalue.back _).front _

def getterNames (g : Getter) : List String :=
  g.type.target.standardNames ++ (g.type.target.collectors ++ thrownNames g.throws)

def setterNames (s : Setter) : List String :=
  s.type.target.standardNames ++ (s.type.target.boxes ++ "Unit" :: thrownNames s.throws)

def parameterNames (p : Parameter) : List String :=
  p.type.target.standardNames ++ p.type.target.boxes

def comparedNames (compared : List String) : List String :=
  ["Any", "Boolean", "Int", "String"] ++ if compared.isEmpty then [] else ["Seq"]

theorem writes_getterNames {g : Getter} {name : String} (h : name ∈ getterNames g) :
    Fragment.Writes (getterDef g).fragments name := by
  have hwrites := writes_getterDef g
  obtain h | h := List.mem_append.mp h
  . exact hwrites.type.mono (ScalaType.within_of_mem_standardNames h)
  obtain h | h := List.mem_append.mp h
  . have hmaker : name ∈ g.type.target.makers :=
      g.type.target.makers_perm.mem_iff.mpr (List.mem_append_left _ h)
    have hcompanion : name ∈ (getterValue g).companions :=
      (companions_fromHostAt _ _ _).mem_iff.mpr hmaker
    exact hwrites.value.mono (Expression.within_of_mem_companions hcompanion)
  . exact hwrites.names name h

theorem writes_setterNames {s : Setter} {name : String} (h : name ∈ setterNames s) :
    Fragment.Writes (setterDef s).fragments name := by
  obtain ⟨hwrites, htype⟩ := writes_setterDef s
  obtain h | h := List.mem_append.mp h
  . exact htype.mono (ScalaType.within_of_mem_standardNames h)
  obtain h | h := List.mem_append.mp h
  . have hcompanion : name ∈ (setterValue s).companions :=
      (companions_toHostAt _ _ _).mem_iff.mpr h
    exact hwrites.value.mono (((Expression.within_of_mem_companions hcompanion).back _).front _)
  obtain rfl | h := List.mem_cons.mp h
  . exact hwrites.type
  . exact hwrites.names name h

theorem writes_parameterNames (host : String) {k : Constructor} {p : Parameter}
    (hp : p ∈ k.parameters) {name : String} (h : name ∈ parameterNames p) :
    Fragment.Writes (constructorDef host k).fragments name := by
  obtain ⟨htype, hvalue⟩ := writes_constructorDef host hp
  obtain h | h := List.mem_append.mp h
  . exact htype.mono (ScalaType.within_of_mem_standardNames h)
  . have hcompanion : name ∈ (parameterValue p).companions :=
      (companions_toHostAt _ _ _).mem_iff.mpr h
    exact hvalue.mono (Expression.within_of_mem_companions hcompanion)

theorem writes_comparedNames (wrapper : String) {compared : List String} {name : String}
    (h : name ∈ comparedNames compared) :
    ∃ d ∈ [equalsDef wrapper compared, hashCodeDef compared, toStringDef wrapper compared],
      Fragment.Writes d.fragments name := by
  simp only [comparedNames, List.mem_append, List.mem_cons, List.not_mem_nil, or_false] at h
  obtain (rfl | rfl | rfl | rfl) | h := h
  . refine ⟨_, List.mem_cons_self, (Def.writes_signature _).mono ?_⟩
    exact (within_paramList (p := ⟨"other", "Any", false⟩) List.mem_cons_self).trans
      (Def.within_params rfl)
  . exact ⟨_, List.mem_cons_self, (Def.writes_signature _).mono (Def.within_returns rfl)⟩
  . exact ⟨_, List.mem_cons_of_mem _ List.mem_cons_self,
      (Def.writes_signature _).mono (Def.within_returns rfl)⟩
  . exact ⟨_, List.mem_cons_of_mem _ (List.mem_cons_of_mem _ List.mem_cons_self),
      (Def.writes_signature _).mono (Def.within_returns rfl)⟩
  . split at h
    . cases h
    . next hcompared =>
      rw [List.mem_singleton.mp h]
      have hseq : Within "Seq" "Seq[Any](" := Within.rfl.front "[Any]("
      refine ⟨_, List.mem_cons_of_mem _ List.mem_cons_self,
        Def.writes_body ((Fragment.Writes.line _).mono ?_)⟩
      rw [if_neg hcompared]
      exact (hseq.front _).front _

def memberDefs (o : Outline) (constructors : List Constructor) (getters : List Getter)
    (setters : List Setter) : List Def :=
  constructors.map (constructorDef (hostReference o.className)) ++ getters.map getterDef ++
    setters.map setterDef ++
    [equalsDef o.name (compared getters), hashCodeDef (compared getters),
      toStringDef o.name (compared getters)]

def classDef (o : Outline) (constructors : List Constructor) (getters : List Getter)
    (setters : List Setter) : ClassDef where
  name := o.name
  modifiers := ["final"]
  params := [{ name := "underlying", type := hostReference o.className, isVal := true }]
  members := (memberDefs o constructors getters setters).map Def.fragments

theorem body_sourceFile (o : Outline) (constructors : List Constructor) (getters : List Getter)
    (setters : List Setter) : (sourceFile o constructors getters setters).body =
      [(classDef o constructors getters setters).fragments] := by
  simp only [classDef, memberDefs, List.map_append, List.map_map]
  rfl

end ClassWrapper

namespace Outline

/-- The exceptions that the members of a wrapper declare. -/
def exceptions (o : Outline) : List String :=
  match o.body with
  | .enumeration _ => []
  | .members _ getters setters =>
    getters.flatMap Getter.throws ++ setters.flatMap Setter.throws

/-- The paths by which the source of a wrapper refers to packages, classes, constants and exceptions. -/
def paths (o : Outline) : List String :=
  let constants :=
    match o.body with
    | .enumeration constants => constants.map (EnumWrapper.hostConstant (hostReference o.className))
    | .members _ _ _ => []
  (if o.package.isEmpty then [] else [escapePath o.package]) ++
    hostReference o.className :: constants ++
    o.memberTypes.flatMap (fun type => type.target.wrappers.map ScalaType.render) ++
    o.exceptions.map exceptionReference

/-- The names of standard types that the source of a wrapper is written with. -/
def standardNames (o : Outline) : List String :=
  match o.body with
  | .enumeration constants => "List" :: if constants.isEmpty then ["MatchError"] else []
  | .members constructors getters setters =>
    constructors.flatMap (fun k => k.parameters.flatMap ClassWrapper.parameterNames) ++
      getters.flatMap ClassWrapper.getterNames ++ setters.flatMap ClassWrapper.setterNames ++
      ClassWrapper.comparedNames (ClassWrapper.compared getters)

variable {o : Outline} {text : String}

theorem within_content {group : List Fragment} (hgroup : group ∈ o.sourceFile.body)
    (h : Fragment.Writes group text) : Within text o.file.content :=
  SourceFile.within_render_of_body hgroup h

section

variable {constructors : List Constructor} {getters : List Getter} {setters : List Setter}

theorem classDef_mem_body (hbody : o.body = .members constructors getters setters) :
    (ClassWrapper.classDef o constructors getters setters).fragments ∈ o.sourceFile.body := by
  rw [sourceFile, hbody]
  dsimp only
  rw [ClassWrapper.body_sourceFile]
  exact List.mem_singleton_self _

theorem within_content_of_memberDef (hbody : o.body = .members constructors getters setters)
    {d : Def} (hd : d ∈ ClassWrapper.memberDefs o constructors getters setters)
    (h : Fragment.Writes d.fragments text) : Within text o.file.content :=
  within_content (classDef_mem_body hbody) (writes_withMembers (List.mem_map_of_mem hd) h _)

theorem within_content_of_constructor (hbody : o.body = .members constructors getters setters)
    {k : Constructor} (hk : k ∈ constructors)
    (h : Fragment.Writes (ClassWrapper.constructorDef (hostReference o.className) k).fragments text) :
    Within text o.file.content :=
  within_content_of_memberDef hbody (List.mem_append_left _ (List.mem_append_left _
    (List.mem_append_left _ (List.mem_map_of_mem hk)))) h

theorem within_content_of_getter (hbody : o.body = .members constructors getters setters)
    {g : Getter} (hg : g ∈ getters)
    (h : Fragment.Writes (ClassWrapper.getterDef g).fragments text) :
    Within text o.file.content :=
  within_content_of_memberDef hbody (List.mem_append_left _ (List.mem_append_left _
    (List.mem_append_right _ (List.mem_map_of_mem hg)))) h

theorem within_content_of_setter (hbody : o.body = .members constructors getters setters)
    {s : Setter} (hs : s ∈ setters)
    (h : Fragment.Writes (ClassWrapper.setterDef s).fragments text) :
    Within text o.file.content :=
  within_content_of_memberDef hbody (List.mem_append_left _ (List.mem_append_right _
    (List.mem_map_of_mem hs))) h

end

section

variable {constants : List Constant}

theorem companion_mem_body (hbody : o.body = .enumeration constants) :
    (EnumWrapper.companion o constants).fragments ∈ o.sourceFile.body := by
  rw [sourceFile, hbody]
  exact List.mem_cons_of_mem _ List.mem_cons_self

theorem within_content_of_constant (hbody : o.body = .enumeration constants) {c : Constant}
    (hc : c ∈ constants) :
    Within (EnumWrapper.hostConstant (hostReference o.className) c) o.file.content := by
  refine within_content (companion_mem_body hbody) (writes_withMembers List.mem_cons_self ?_ _)
  rw [EnumWrapper.fragments_constantDefs]
  refine .of_mem (List.mem_map_of_mem hc) ((Fragment.Writes.line _).mono ?_)
  exact (((Within.rfl.back _).front _).back _).back _

theorem within_content_of_standardName (hbody : o.body = .enumeration constants) {name : String}
    (h : name ∈ "List" :: if constants.isEmpty then ["MatchError"] else []) :
    Within name o.file.content := by
  obtain rfl | h := List.mem_cons.mp h
  . have hline : Within "List" "val values: List[" := (Within.rfl.front "[").back "val values: "
    refine within_content (companion_mem_body hbody)
      (writes_withMembers (List.mem_cons_of_mem _ List.mem_cons_self) ?_ _)
    refine (Fragment.Writes.line _).mono ?_
    exact (((hline.front _).front _).front _).front _
  . split at h
    . next hempty =>
      rw [List.mem_singleton.mp h]
      have hexpression : Within "MatchError" "throw new MatchError(value)" :=
        (Within.rfl.front "(value)").back "throw new "
      refine within_content (companion_mem_body hbody) (writes_withMembers
        (List.mem_cons_of_mem _ (List.mem_cons_of_mem _ List.mem_cons_self)) ?_ _)
      rw [EnumWrapper.fromHostDef, if_pos hempty]
      exact Def.writes_body ((Fragment.Writes.line _).mono hexpression)
    . cases h

end

theorem within_content_hostReference (o : Outline) :
    Within (hostReference o.className) o.file.content := by
  cases hbody : o.body with
  | enumeration constants =>
    have hwrapper : (EnumWrapper.wrapper o).fragments ∈ o.sourceFile.body := by
      rw [sourceFile, hbody]
      exact List.mem_cons_self
    refine within_content hwrapper ((writes_withMembers_header _ _).mono ?_)
    exact (within_paramList (p := ⟨"toJava", hostReference o.className, true⟩)
      List.mem_cons_self).back _
  | members constructors getters setters =>
    refine within_content (classDef_mem_body hbody) ((writes_withMembers_header _ _).mono ?_)
    exact (within_paramList (p := ⟨"underlying", hostReference o.className, true⟩)
      List.mem_cons_self).back _

theorem within_content_of_memberType {type : MemberType} (h : type ∈ o.memberTypes) :
    Within type.target.render o.file.content := by
  unfold memberTypes at h
  split at h
  . cases h
  . next constructors getters setters hbody =>
    simp only [List.mem_append, List.mem_flatMap, List.mem_map] at h
    obtain (⟨k, hk, p, hp, rfl⟩ | ⟨g, hg, rfl⟩) | ⟨s, hs, rfl⟩ := h
    . exact within_content_of_constructor hbody hk (ClassWrapper.writes_constructorDef _ hp).1
    . exact within_content_of_getter hbody hg (ClassWrapper.writes_getterDef g).type
    . exact within_content_of_setter hbody hs (ClassWrapper.writes_setterDef s).2

theorem within_content_of_exception {e : String} (h : e ∈ o.exceptions) :
    Within (exceptionReference e) o.file.content := by
  unfold exceptions at h
  split at h
  . cases h
  . next constructors getters setters hbody =>
    obtain h | h := List.mem_append.mp h
    . obtain ⟨g, hg, he⟩ := List.mem_flatMap.mp h
      exact within_content_of_getter hbody hg ((ClassWrapper.writes_getterDef g).references e he)
    . obtain ⟨s, hs, he⟩ := List.mem_flatMap.mp h
      exact within_content_of_setter hbody hs ((ClassWrapper.writes_setterDef s).1.references e he)

theorem within_content_of_path {path : String} (h : path ∈ o.paths) :
    Within path o.file.content := by
  unfold paths at h
  dsimp only at h
  simp only [List.mem_append, List.mem_cons, List.mem_flatMap, List.mem_map] at h
  obtain ((h | rfl | h) | ⟨type, htype, w, hw, rfl⟩) | ⟨e, he, rfl⟩ := h
  . split at h
    . cases h
    . next hpackage =>
      rw [List.mem_singleton.mp h]
      have hsource : o.sourceFile.package = o.package := by
        unfold sourceFile
        split <;> rfl
      rw [← hsource] at hpackage ⊢
      exact SourceFile.within_render_package (by simpa using hpackage)
  . exact o.within_content_hostReference
  . split at h
    . next constants hbody =>
      obtain ⟨c, hc, rfl⟩ := List.mem_map.mp h
      exact within_content_of_constant hbody hc
    . cases h
  . exact (ScalaType.within_of_mem_wrappers hw).trans (within_content_of_memberType htype)
  . exact within_content_of_exception he

/-- All names of standard types that a wrapper is said to use are written in its source. -/
theorem within_content_of_mem_standardNames {name : String} (h : name ∈ o.standardNames) :
    Within name o.file.content := by
  unfold standardNames at h
  split at h
  . next constants hbody => exact within_content_of_standardName hbody h
  . next constructors getters setters hbody =>
    simp only [List.mem_append, List.mem_flatMap] at h
    obtain ((⟨k, hk, p, hp, h⟩ | ⟨g, hg, h⟩) | ⟨s, hs, h⟩) | h := h
    . exact within_content_of_constructor hbody hk (ClassWrapper.writes_parameterNames _ hp h)
    . exact within_content_of_getter hbody hg (ClassWrapper.writes_getterNames h)
    . exact within_content_of_setter hbody hs (ClassWrapper.writes_setterNames h)
    . obtain ⟨d, hd, hname⟩ := ClassWrapper.writes_comparedNames o.name h
      exact within_content_of_memberDef hbody (List.mem_append_right _ hd) hname

end Outline

end Facade.Scala

namespace Facade.Record

open Host Matching Outcome Scala

theorem mem_iff_of_mapM {className : String} {m : Method} {throws : List String}
    (h : m.throws.mapM (readException (methodName className m.name)) = .ok throws) {e : String} :
    e ∈ throws ↔ ∃ name ∈ m.throws, readException (methodName className m.name) name = .ok e := by
  have hrel := mapM_eq_ok_iff.mp h
  constructor
  . exact exists_of_mem_right hrel
  . rintro ⟨name, hname, hread⟩
    obtain ⟨e', he', hread'⟩ := exists_of_mem_left hrel hname
    rw [hread] at hread'
    cases hread'
    exact he'

theorem mem_flatMap_throws {α β : Type} {className : String} {method : α → Method}
    {throws : β → List String} {items : List α} {members : List β}
    (h : List.Forall₂ (fun a b => (method a).throws.mapM
      (readException (methodName className (method a).name)) = .ok (throws b)) items members)
    {e : String} : e ∈ members.flatMap throws ↔ ∃ m ∈ items.map method, ∃ name ∈ m.throws,
      readException (methodName className m.name) name = .ok e := by
  induction h with
  | nil => simp
  | cons hab _ ih =>
    rw [List.flatMap_cons, List.mem_append, mem_iff_of_mapM hab, ih, List.map_cons,
      List.exists_mem_cons_iff]

theorem mem_exceptions_iff {markers : Settings.Markers} {enums : List String} {r : Record}
    {c : HostClass} {catalog : Catalog} {o : Outline} (hclass : r.isEnum = false)
    (hdescribe : describe markers enums r = .ok c) (houtline : Outline.ofClass catalog c = .ok o)
    {e : String} : e ∈ o.exceptions ↔
      ∃ m ∈ r.readers enums ++ (r.fieldAssigners enums).map Prod.snd, ∃ name ∈ m.throws,
        readException (methodName r.name m.name) name = .ok e := by
  obtain ⟨hnames, -, -⟩ := bound_of_describe hclass hdescribe
  obtain ⟨ks, bound, computed, ss, hbody, hmembers⟩ :=
    outlined_of_ofClass hclass hdescribe houtline
  have hbound : List.Forall₂ (fun (a : Field × Method) g =>
      a.2.throws.mapM (readException (methodName r.name a.2.name)) = .ok g.throws)
      (r.fieldReaders enums) bound := by
    refine hmembers.bound.imp ?_
    rintro ⟨f, m⟩ g ⟨-, d, hdescribed, -, houtlines⟩
    exact houtlines.throws ▸ hdescribed.throws
  have hcomputed : List.Forall₂ (fun (m : Method) g =>
      m.throws.mapM (readException (methodName r.name m.name)) = .ok g.throws)
      (r.computedReaders enums) computed := by
    refine hmembers.computed.imp ?_
    rintro m g ⟨d, hdescribed, -, houtlines⟩
    exact houtlines.throws ▸ hdescribed.throws
  have hsetters : List.Forall₂ (fun (a : Field × Method) s =>
      a.2.throws.mapM (readException (methodName r.name a.2.name)) = .ok s.throws)
      (r.fieldAssigners enums) ss := by
    refine hmembers.setters.imp ?_
    rintro ⟨f, m⟩ s ⟨-, d, hdescribed, -, houtlines⟩
    exact houtlines.throws ▸ hdescribed.throws
  have hperm : ((r.fieldReaders enums).map Prod.snd ++ r.computedReaders enums).Perm
      (r.readers enums) := firsts_append_leftover_perm (exclusive_hasProperty hnames _) _
  have hexceptions : o.exceptions =
      (bound ++ computed).flatMap Outline.Getter.throws ++ ss.flatMap Outline.Setter.throws := by
    rw [Outline.exceptions, hbody]
  have hread : e ∈ computed.flatMap Outline.Getter.throws ↔
      ∃ m ∈ (r.computedReaders enums).map id, ∃ name ∈ m.throws,
        readException (methodName r.name m.name) name = .ok e := mem_flatMap_throws hcomputed
  rw [List.map_id] at hread
  rw [hexceptions, List.flatMap_append, List.mem_append, List.mem_append,
    mem_flatMap_throws hbound, hread, mem_flatMap_throws hsetters]
  simp only [List.mem_append, ← hperm.mem_iff, or_and_right, exists_or]

end Facade.Record
