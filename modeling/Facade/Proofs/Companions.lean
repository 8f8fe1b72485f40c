import Facade.Proofs.FirstClaims
import Facade.Proofs.Hygiene

/-!
This module contains the proofs about the companions of enumerations: what the simple names in their
bodies stand for, and just when the object for a constant hides what a body means by its name, or is
hidden itself.
-/

namespace Facade.Scala

open Text Host Outcome

namespace Outline

section

variable {pool : NamePool} {hosts : List String} {cs : List Constant} {term : String}

theorem mem_names_of_mem_hosts (h : constants pool hosts = .ok cs)
    (hsafe : safeName? term = some term) (hfree : term ∉ pool.taken) (hmem : term ∈ hosts) :
    term ∈ cs.map Constant.name := by
  obtain ⟨last, hthreads⟩ := threads_constants h
  clear h
  induction hthreads with
  | nil => cases hmem
  | cons hfirst _ ih =>
    have hclaim := claim_of_claimName hfirst.2
    obtain ⟨variant, -, hvariant, rfl⟩ := NamePool.claim_cases hclaim
    rw [List.map_cons, List.mem_cons]
    -- this claim takes the name, or the name is still free for the claims behind it
    by_cases hsame : variant = term
    . rw [hsame, hsafe] at hvariant
      exact .inl (Option.some.inj hvariant)
    . obtain rfl | hmem := List.mem_cons.mp hmem
      . rw [NamePool.claim_of_free hsafe hfree] at hclaim
        exact .inl (congrArg Prod.fst (Except.ok.inj hclaim))
      . refine .inr (ih ?_ hmem)
        rw [NamePool.reserve, List.mem_append, List.mem_singleton, not_or]
        exact ⟨fun heq => hsame heq.symm, hfree⟩

/-- A name without digits that is free at first is that of an object just if it is that of a constant. -/
theorem mem_names_iff_mem_hosts (h : constants pool hosts = .ok cs)
    (hsafe : safeName? term = some term) (htick : '`' ∉ term.toList)
    (hdigits : term.toList.any Char.isDigit = false) (hfree : term ∉ pool.taken) :
    term ∈ cs.map Constant.name ↔ term ∈ hosts := by
  refine ⟨fun hmem => ?_, mem_names_of_mem_hosts h hsafe hfree⟩
  obtain ⟨c, hc, rfl⟩ := List.mem_map.mp hmem
  obtain ⟨hhost, hgiven⟩ := forall_of_constants givenFor_of_claimName h c hc
  obtain hescaped | hsame | ⟨d, hd, hdigit⟩ := hgiven.cases
  . exact absurd hescaped htick
  . rwa [hsame]
  . exact absurd hdigit (List.any_eq_false.mp hdigits d hd)

end

end Outline

namespace EnumWrapper

open Outline

/-- What a simple name stands for in the companion of an enumeration. -/
inductive Referent where
  /-- The object for a constant of the host. -/
  | object (constant : String)
  /-- The constant of the host that a function is called with. -/
  | argument
  /-- What the name stands for outside of the companion. -/
  | outer
  deriving DecidableEq, Repr

/-- A simple name in a body, and what it is meant to stand for. -/
structure Use where
  name : String
  meant : Referent
  deriving DecidableEq, Repr

abbrev Scope := List (String × Referent)

/-- What a name stands for where some names are known. -/
def Scope.referent (scope : Scope) (name : String) : Referent :=
  (scope.lookup name).getD .outer

/-- Whether names stand for what they are meant to. -/
def Scope.Resolves (scope : Scope) (uses : List Use) : Prop :=
  ∀ u ∈ uses, scope.referent u.name = u.meant

instance (scope : Scope) (uses : List Use) : Decidable (scope.Resolves uses) :=
  inferInstanceAs (Decidable (∀ u ∈ uses, scope.referent u.name = u.meant))

/-- The names of the objects of a companion, which are known in all of it. -/
def objects (constants : List Constant) : Scope :=
  constants.map fun c => (c.name, .object c.host)

/-- The names that are known in the body of the function from the constants of the host. -/
def fromHostScope (constants : List Constant) : Scope :=
  ("value", .argument) :: objects constants

def useOf (c : Constant) : Use :=
  ⟨c.name, .object c.host⟩

def rootUse : Use :=
  ⟨"_root_", .outer⟩

def valuesUses (constants : List Constant) : List Use :=
  ⟨"List", .outer⟩ :: constants.map useOf

def fromHostUses (constants : List Constant) : List Use :=
  ⟨"value", .argument⟩ :: constants.flatMap fun c => [rootUse, useOf c]

/-- Whether all names in a companion stand for what they are meant to. -/
structure Hygienic (constants : List Constant) : Prop where
  /-- The objects refer to the host. -/
  objects : (objects constants).Resolves (constants.map fun _ => rootUse)
  values : (EnumWrapper.objects constants).Resolves (valuesUses constants)
  fromHost : (fromHostScope constants).Resolves (fromHostUses constants)

-- The companion is written from these names, and from nothing else that is a term.

theorem headOf_hostConstant (qualified : String) (c : Constant) :
    headOf (hostConstant (hostReference qualified) c) = rootUse.name := by
  have hroot : rootStart = "_root_" ++ "." := by decide
  rw [hostConstant, hostReference, hroot, String.append_assoc, String.append_assoc,
    String.append_assoc]
  exact headOf_append_dot (by decide) (by rw [String.toList_append]; rfl)

theorem constantDef_eq (name host : String) (c : Constant) :
    constantDef name host c =
      { name := (useOf c).name, isCase := true,
        parent := some (name ++ "(" ++ hostConstant host c ++ ")") } := rfl

theorem valuesFragment_eq (name : String) (constants : List Constant) :
    valuesFragment name constants =
      .line ("val values: List[" ++ name ++ "] = List(" ++
        ", ".intercalate ((constants.map useOf).map Use.name) ++ ")") := by
  rw [List.map_map]
  rfl

theorem body_fromHostDef_nil (name host : String) :
    (fromHostDef name host []).body = [.line "throw new MatchError(value)"] := rfl

theorem body_fromHostDef_cons (name host : String) (c : Constant) (cs : List Constant) :
    (fromHostDef name host (c :: cs)).body =
      [matchFragment "value"
        ((c :: cs).map fun c => ⟨hostConstant host c, [(useOf c).name]⟩)] := rfl

section

variable {constants : List Constant}

theorem referent_of_not_mem {name : String} (h : name ∉ constants.map Constant.name) :
    (objects constants).referent name = .outer := by
  have hnone : (objects constants).lookup name = none := by
    rw [List.lookup_eq_none_iff]
    intro known hknown
    obtain ⟨c, hc, rfl⟩ := List.mem_map.mp hknown
    rw [bne_iff_ne]
    rintro rfl
    exact h (List.mem_map_of_mem hc)
  rw [Scope.referent, hnone, Option.getD_none]

theorem referent_of_mem (hnodup : (constants.map Constant.name).Nodup) {c : Constant}
    (h : c ∈ constants) : (objects constants).referent c.name = .object c.host := by
  induction constants with
  | nil => cases h
  | cons first constants ih =>
    rw [List.map_cons, List.nodup_cons] at hnodup
    rw [Scope.referent, objects, List.map_cons, List.lookup_cons]
    obtain rfl | h := List.mem_cons.mp h
    . rw [beq_self_eq_true]
      rfl
    . have hne : (c.name == first.name) = false := by
        rw [beq_eq_false_iff_ne]
        intro heq
        exact hnodup.1 (heq ▸ List.mem_map_of_mem h)
      rw [hne]
      exact ih hnodup.2 h

theorem referent_eq_outer_iff (hnodup : (constants.map Constant.name).Nodup) {name : String} :
    (objects constants).referent name = .outer ↔ name ∉ constants.map Constant.name := by
  refine ⟨fun h hmem => ?_, referent_of_not_mem⟩
  obtain ⟨c, hc, rfl⟩ := List.mem_map.mp hmem
  rw [referent_of_mem hnodup hc] at h
  cases h

theorem resolves_values_iff (hnodup : (constants.map Constant.name).Nodup) :
    (objects constants).Resolves (valuesUses constants) ↔
      "List" ∉ constants.map Constant.name := by
  rw [Scope.Resolves, valuesUses, List.forall_mem_cons, referent_eq_outer_iff hnodup,
    and_iff_left]
  rw [List.forall_mem_map]
  exact fun c hc => referent_of_mem hnodup hc

theorem referent_fromHostScope {name : String} (h : name ≠ "value") :
    (fromHostScope constants).referent name = (objects constants).referent name := by
  rw [Scope.referent, fromHostScope, List.lookup_cons, beq_false_of_ne h]
  rfl

theorem resolves_fromHost_iff (hnodup : (constants.map Constant.name).Nodup)
    (hroot : rootUse.name ∉ constants.map Constant.name) :
    (fromHostScope constants).Resolves (fromHostUses constants) ↔
      "value" ∉ constants.map Constant.name := by
  constructor
  . intro h hmem
    obtain ⟨c, hc, hname⟩ := List.mem_map.mp hmem
    have huse : useOf c ∈ fromHostUses constants :=
      List.mem_cons_of_mem _ (List.mem_flatMap.mpr ⟨c, hc, by simp⟩)
    -- the parameter is bound inside of the object
    have hobject := h _ huse
    rw [useOf, hname] at hobject
    cases hobject
  . intro h
    rw [Scope.Resolves, fromHostUses, List.forall_mem_cons]
    refine ⟨rfl, fun u hu => ?_⟩
    obtain ⟨c, hc, hu⟩ := List.mem_flatMap.mp hu
    obtain rfl | hu := List.mem_cons.mp hu
    . rw [referent_fromHostScope (by decide)]
      exact referent_of_not_mem hroot
    . obtain rfl := List.mem_singleton.mp hu
      rw [referent_fromHostScope]
      . exact referent_of_mem hnodup hc
      . intro heq
        exact h (heq ▸ List.mem_map_of_mem hc)

theorem resolves_objects (hroot : rootUse.name ∉ constants.map Constant.name) :
    (objects constants).Resolves (constants.map fun _ => rootUse) := by
  rw [Scope.Resolves, List.forall_mem_map]
  exact fun _ _ => referent_of_not_mem hroot

end

section

variable {catalog : Catalog} {host : HostClass} {o : Outline} {constants : List Constant}

theorem names_of_ofClass (h : Outline.ofClass catalog host = .ok o)
    (hbody : o.body = .enumeration constants) :
    Outline.constants (NamePool.members.reserve companionMembers) host.constants =
        .ok constants ∧
      (constants.map Constant.name).Nodup ∧ rootUse.name ∉ constants.map Constant.name := by
  obtain ⟨-, hcs⟩ := constants_of_ofClass h hbody
  obtain ⟨rest, hgives⟩ := gives_of_constants hcs
  refine ⟨hcs, hgives.legal.2, fun hmem => ?_⟩
  obtain ⟨c, hc, hroot⟩ := List.mem_map.mp hmem
  obtain ⟨-, free, -, hsafe⟩ := forall_of_constants givenFor_of_claimName hcs c hc
  exact ne_root_of_safeName? hsafe hroot

/-- The terms that the companion of an enumeration uses for something else than a constant. -/
def ownTerms : List String :=
  ["List", "value"]

/-- The object for a constant has a name that the companion uses for something else just if some
constant of the host is called so: `List` then is no longer what makes the list of all constants, and
the object called `value` is hidden by the parameter where it should be the result. -/
theorem hygienic_companion_iff (h : Outline.ofClass catalog host = .ok o)
    (hbody : o.body = .enumeration constants) :
    (∀ term ∈ ownTerms, term ∈ constants.map Constant.name ↔ term ∈ host.constants) ∧
      ((objects constants).Resolves (valuesUses constants) ↔ "List" ∉ host.constants) ∧
      ((fromHostScope constants).Resolves (fromHostUses constants) ↔ "value" ∉ host.constants) ∧
      (Hygienic constants ↔ ∀ c ∈ constants, c.name ∉ ownTerms) := by
  obtain ⟨hconstants, hnodup, hroot⟩ := names_of_ofClass h hbody
  have hown : ∀ term ∈ ownTerms, safeName? term = some term ∧ '`' ∉ term.toList ∧
      term.toList.any Char.isDigit = false ∧
        term ∉ (NamePool.members.reserve companionMembers).taken := by
    decide
  -- no digit is in these terms, so none of them is a name with a number behind it
  have hmem : ∀ term ∈ ownTerms,
      (term ∈ constants.map Constant.name ↔ term ∈ host.constants) := by
    intro term hterm
    obtain ⟨hsafe, htick, hdigits, hfree⟩ := hown term hterm
    exact mem_names_iff_mem_hosts hconstants hsafe htick hdigits hfree
  have hvalues := resolves_values_iff hnodup
  have hfromHost := resolves_fromHost_iff hnodup hroot
  refine ⟨hmem, ?_, ?_, ?_⟩
  . rw [hvalues, hmem "List" (by decide)]
  . rw [hfromHost, hmem "value" (by decide)]
  . constructor
    . intro hhygienic c hc hterm
      have hname := List.mem_map_of_mem hc (f := Constant.name)
      obtain heq | hterm := List.mem_cons.mp hterm
      . exact hvalues.mp hhygienic.values (heq ▸ hname)
      . exact hfromHost.mp hhygienic.fromHost (List.mem_singleton.mp hterm ▸ hname)
    . intro hnames
      have hnot : ∀ term ∈ ownTerms, term ∉ constants.map Constant.name := by
        intro term hterm hmem
        obtain ⟨c, hc, rfl⟩ := List.mem_map.mp hmem
        exact hnames c hc hterm
      exact ⟨resolves_objects hroot, hvalues.mpr (hnot _ (by decide)),
        hfromHost.mpr (hnot _ (by decide))⟩

end

def modeClass : HostClass :=
  .enumeration "p.Mode" ["LIST", "Value", "type"]

theorem hygienic_companion_iff_mode :
    ∃ outline constants,
      Outline.ofClass (Catalog.ofClasses Settings.standard [modeClass]).1 modeClass =
        .ok outline ∧ outline.body = .enumeration constants ∧
      (∀ term ∈ ownTerms, term ∈ constants.map Constant.name ↔ term ∈ modeClass.constants) ∧
        ((objects constants).Resolves (valuesUses constants) ↔ "List" ∉ modeClass.constants) ∧
        ((fromHostScope constants).Resolves (fromHostUses constants) ↔
          "value" ∉ modeClass.constants) ∧
        (Hygienic constants ↔ ∀ c ∈ constants, c.name ∉ ownTerms) := by
  have hbody : (Outline.ofClass (Catalog.ofClasses Settings.standard [modeClass]).1
      modeClass).map Outline.body = .ok (.enumeration
        [⟨"LIST", "LIST"⟩, ⟨"Value", "Value"⟩, ⟨"type", escaped "type"⟩]) := by rfl
  obtain ⟨outline, houtline, hbody⟩ := map_eq_ok_iff.mp hbody
  exact ⟨outline, _, houtline, hbody, hygienic_companion_iff houtline hbody⟩

def kindClass : HostClass :=
  .enumeration "p.Kind" ["List", "value"]

def kindFile : GeneratedFile where
  path := "p/wrappers/Kind.scala"
  content := String.join ([
    "// Code generated by wrapgen. DO NOT EDIT.",
    "// Source: p.Kind",
    "",
    "package p.wrappers",
    "",
    "sealed abstract class Kind(val toJava: _root_.p.Kind)",
    "",
    "object Kind \x7b",
    "  case object List extends Kind(_root_.p.Kind.List)",
    "  case object value extends Kind(_root_.p.Kind.value)",
    "",
    "  val values: List[Kind] = List(List, value)",
    "",
    "  def fromJava(value: _root_.p.Kind): Kind = value match \x7b",
    "    case _root_.p.Kind.List => List",
    "    case _root_.p.Kind.value => value",
    "  \x7d",
    "\x7d"
  ].map (· ++ "\n"))

/-- The object for `List` is called to make the list of all constants, and what is found for `value` is
the constant of the host. -/
theorem companion_not_hygienic :
    ∃ outline constants,
      Outline.ofClass (Catalog.ofClasses Settings.standard [kindClass]).1 kindClass =
        .ok outline ∧
      outline.body = .enumeration constants ∧ outline.file = kindFile ∧
      (objects constants).referent "List" = .object "List" ∧
      (fromHostScope constants).referent "value" = .argument ∧
      ¬ (objects constants).Resolves (valuesUses constants) ∧
      ¬ (fromHostScope constants).Resolves (fromHostUses constants) := by
  have houtline : (Outline.ofClass (Catalog.ofClasses Settings.standard [kindClass]).1
      kindClass).map (fun o => (o.body, o.file)) =
        .ok (.enumeration [⟨"List", "List"⟩, ⟨"value", "value"⟩], kindFile) := by rfl
  obtain ⟨outline, houtline, heq⟩ := map_eq_ok_iff.mp houtline
  obtain ⟨hbody, hfile⟩ := Prod.mk.inj heq
  exact ⟨outline, _, houtline, hbody, hfile, by decide, by decide, by decide, by decide⟩

end EnumWrapper

end Facade.Scala
