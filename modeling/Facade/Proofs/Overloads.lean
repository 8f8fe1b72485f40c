import Facade.Proofs.Wrappers

/-!
This module contains the proofs about constructors of one class: no two of them have the same types at
run time, but two may be written with the same types if one of these is a text that settings give.
-/

namespace Facade.Scala

open Host Outcome

/-- What a text starts with in front of the arguments of a type. -/
def formerOf (text : String) : String :=
  String.ofList (text.toList.takeWhile (· != '['))

section

variable {name : String}

theorem bne_of_mem_former (h : '[' ∉ name.toList) : ∀ c ∈ name.toList, (c != '[') = true := by
  intro c hc
  rw [bne_iff_ne]
  rintro rfl
  exact h hc

theorem formerOf_of_not_mem (h : '[' ∉ name.toList) : formerOf name = name := by
  rw [formerOf, List.takeWhile_eq_self_iff.mpr (bne_of_mem_former h), String.ofList_toList]

theorem formerOf_append (h : '[' ∉ name.toList) (rest : String) :
    formerOf (name ++ "[" ++ rest) = name := by
  have hrest : ("[" ++ rest).toList = '[' :: rest.toList := by simp
  rw [formerOf, String.append_assoc, String.toList_append, hrest,
    List.takeWhile_append_of_pos (bne_of_mem_former h), List.takeWhile_cons_of_neg (by decide),
    List.append_nil, String.ofList_toList]

end

namespace ScalaType

/-- Whether a type is a text that settings give. -/
def isExternal : ScalaType → Bool
  | external _ => true
  | _ => false

/-- The name of a standard type, whatever its arguments are. -/
def standardName? : ScalaType → Option String
  | scalar s _ => some (scalarName s)
  | list _ => some "List"
  | set _ => some "Set"
  | map _ _ => some "Map"
  | option _ => some "Option"
  | _ => none

/-- The standard types by their names, and what they are at run time. -/
def erasures : List (String × String) :=
  (Scalar.all.map fun s => (scalarName s, s.plainName)) ++
    [("List", "scala.collection.immutable.List"), ("Set", "scala.collection.immutable.Set"),
      ("Map", "scala.collection.immutable.Map"), ("Option", "scala.Option")]

/-- What is known of the names of standard types. No text that starts with one of them is erased like
that type. -/
theorem erasures_names : ∀ e ∈ erasures,
    '[' ∉ e.1.toList ∧ e.1 ∈ standardTypes ∧ withoutRoot e.1 ≠ e.2 ∧
      e.1.toList.head? ≠ some '`' ∧ e.1.toList.head? ≠ some '_' := by
  decide

section

variable {type : ScalaType} {name : String}

theorem lookup_standardName? (h : type.standardName? = some name) :
    erasures.lookup name = some type.erased := by
  have hscalar : ∀ s, erasures.lookup (scalarName s) = some s.plainName := by
    intro s
    cases s <;> decide
  have happlied : erasures.lookup "List" = some "scala.collection.immutable.List" ∧
      erasures.lookup "Set" = some "scala.collection.immutable.Set" ∧
      erasures.lookup "Map" = some "scala.collection.immutable.Map" ∧
      erasures.lookup "Option" = some "scala.Option" := by
    decide
  cases type with
  | external | enumeration | wrapper => cases h
  | scalar s =>
    cases h
    exact hscalar s
  | list =>
    cases h
    exact happlied.1
  | set =>
    cases h
    exact happlied.2.1
  | map =>
    cases h
    exact happlied.2.2.1
  | option =>
    cases h
    exact happlied.2.2.2

theorem mem_erasures (h : type.standardName? = some name) : (name, type.erased) ∈ erasures := by
  obtain ⟨before, after, heq, -⟩ := List.lookup_eq_some_iff.mp (lookup_standardName? h)
  rw [heq]
  exact List.mem_append_right _ List.mem_cons_self

theorem formerOf_render (h : type.standardName? = some name) : formerOf type.render = name := by
  obtain ⟨hbracket, -⟩ := erasures_names _ (mem_erasures h)
  cases type with
  | external | enumeration | wrapper => cases h
  | scalar =>
    cases h
    exact formerOf_of_not_mem hbracket
  | list | set | option =>
    cases h
    rw [render, String.append_assoc]
    exact formerOf_append hbracket _
  | map =>
    cases h
    rw [render, String.append_assoc, String.append_assoc, String.append_assoc]
    exact formerOf_append hbracket _

end

/-- Whether two types are written alike though they differ at run time. -/
structure Mimics (t u : ScalaType) : Prop where
  render : t.render = u.render
  erased : t.erased ≠ u.erased

variable {t u : ScalaType} {name : String}

theorem Mimics.symm (h : t.Mimics u) : u.Mimics t :=
  ⟨h.render.symm, fun heq => h.erased heq.symm⟩

theorem kinds (t : ScalaType) :
    t.isExternal = true ∨ (∃ name, t.standardName? = some name) ∨ t ∈ t.wrappers := by
  cases t with
  | external => exact .inl rfl
  | enumeration | wrapper => exact .inr (.inr List.mem_cons_self)
  | scalar | list | set | map | option => exact .inr (.inl ⟨_, rfl⟩)

theorem not_mimics_of_standard {name' : String} (h : t.standardName? = some name)
    (h' : u.standardName? = some name') : ¬ t.Mimics u := by
  intro hmimics
  obtain rfl : name = name' := by
    rw [← formerOf_render h, hmimics.render, formerOf_render h']
  have hsame := (lookup_standardName? h).symm.trans (lookup_standardName? h')
  exact hmimics.erased (Option.some.inj hsame)

theorem not_mimics_of_external (h : t.isExternal = true) (h' : u.isExternal = true) :
    ¬ t.Mimics u := by
  intro hmimics
  cases t <;> cases h
  cases u <;> cases h'
  obtain rfl := hmimics.render
  exact hmimics.erased rfl

/-- Whatever settings write like a standard type, at run time it is taken for something else. -/
theorem mimics_standard {expression : String} (h : u.standardName? = some name)
    (hrender : u.render = expression) : (external expression).Mimics u := by
  refine ⟨hrender.symm, ?_⟩
  obtain ⟨-, -, herased, -⟩ := erasures_names _ (mem_erasures h)
  have hexternal : (external expression).erased = withoutRoot (formerOf expression) := rfl
  rwa [hexternal, ← hrender, formerOf_render h]

end ScalaType

theorem writtenName_cases (name : String) :
    writtenName name = name ∨ writtenName name = escaped name := by
  unfold writtenName
  cases hsafe : safeName? name with
  | none => exact .inl rfl
  | some safe =>
    obtain ⟨-, rfl⟩ | ⟨-, -, rfl⟩ := safeName?_cases hsafe
    . exact .inr rfl
    . exact .inl rfl

/-- A reference to a wrapper does not start with the name of a standard type. -/
theorem formerOf_reference_ne {entry : Catalog.Entry} (h : entry.IsLegible) (package : String)
    {e : String × String} (he : e ∈ ScalaType.erasures) :
    formerOf (reference entry package) ≠ e.1 := by
  obtain ⟨-, hstandard, -, htick, hroot⟩ := ScalaType.erasures_names e he
  intro heq
  rw [reference_eq] at heq
  split at heq
  . obtain hname | hname := writtenName_cases entry.name
    . rw [hname, formerOf_of_not_mem h.simple] at heq
      exact h.available (heq ▸ hstandard)
    . -- an escaped name starts with a backquote
      rw [hname] at heq
      apply htick
      rw [← heq, formerOf, String.toList_ofList, escaped]
      simp
  . apply hroot
    rw [← heq, formerOf, String.toList_ofList]
    simp [rootStart]

section

variable {catalog : Catalog} {package : String} {t u : ScalaType}

theorem Denotes.not_mimics_standard (hlegible : catalog.IsLegible) {className name : String}
    (ht : Denotes catalog package t className) (hu : u.standardName? = some name) :
    ¬ t.Mimics u := by
  obtain ⟨entry, hentry, rfl⟩ := ht
  intro hmimics
  have hrender := hmimics.render
  rw [render_wrapperType] at hrender
  refine formerOf_reference_ne (hlegible.entry _ _ hentry) package (ScalaType.mem_erasures hu) ?_
  rw [hrender, ScalaType.formerOf_render hu]

theorem Denotes.not_mimics (hlegible : catalog.IsLegible) {className className' : String}
    (ht : Denotes catalog package t className) (hu : Denotes catalog package u className') :
    ¬ t.Mimics u := by
  obtain ⟨entry, hentry, rfl⟩ := ht
  obtain ⟨entry', hentry', rfl⟩ := hu
  intro hmimics
  have hrender := hmimics.render
  rw [render_wrapperType, render_wrapperType] at hrender
  obtain rfl := hlegible.eq_of_reference hentry hentry' hrender
  obtain rfl := Option.some.inj (hentry.symm.trans hentry')
  exact hmimics.erased rfl

/-- Types that are written alike though they differ at run time are a text that settings give and a
type that is none. -/
theorem ScalaType.Mimics.isExternal_ne (hlegible : catalog.IsLegible)
    (ht : ∀ w ∈ t.wrappers, ∃ name, Denotes catalog package w name)
    (hu : ∀ w ∈ u.wrappers, ∃ name, Denotes catalog package w name) (h : t.Mimics u) :
    t.isExternal ≠ u.isExternal := by
  intro hsame
  -- of the same sort, or of two sorts neither of which is a text from settings
  obtain hexternal | ⟨name, hname⟩ | hmem := t.kinds
  . exact not_mimics_of_external hexternal (hsame ▸ hexternal) h
  . obtain hexternal | ⟨name', hname'⟩ | hmem' := u.kinds
    . exact not_mimics_of_external (hsame ▸ hexternal) hexternal h
    . exact not_mimics_of_standard hname hname' h
    . obtain ⟨className, hdenotes⟩ := hu u hmem'
      exact hdenotes.not_mimics_standard hlegible hname h.symm
  . obtain ⟨className, hdenotes⟩ := ht t hmem
    obtain hexternal | ⟨name', hname'⟩ | hmem' := u.kinds
    . exact not_mimics_of_external (hsame ▸ hexternal) hexternal h
    . exact hdenotes.not_mimics_standard hlegible hname' h
    . obtain ⟨className', hdenotes'⟩ := hu u hmem'
      exact hdenotes.not_mimics hlegible hdenotes' h

end

namespace Outline

/-- The types of the parameters of a constructor. -/
def Constructor.targets (k : Constructor) : List ScalaType :=
  k.parameters.map fun p => p.type.target

/-- The types of the parameters of a constructor as they are written. -/
def Constructor.signature (k : Constructor) : List String :=
  k.targets.map ScalaType.render

theorem Constructor.erased_eq (k : Constructor) : k.erased = k.targets.map ScalaType.erased := by
  rw [targets, List.map_map]
  rfl

theorem nodup_of_checkErased {className : String} {seen : List (List String × Option Nat)}
    {index : Nat} {ks : List Constructor} (h : checkErased className seen index ks = .ok ()) :
    (ks.map Constructor.erased).Nodup ∧
      ∀ k ∈ ks, seen.lookup k.erased = none := by
  induction ks generalizing seen index with
  | nil => exact ⟨.nil, nofun⟩
  | cons k ks ih =>
    unfold checkErased at h
    split at h
    . cases h
    . next hnone =>
      obtain ⟨hnodup, hseen⟩ := ih h
      -- what comes behind is looked up among what was seen before and this constructor
      have hrest : ∀ k' ∈ ks, k'.erased ≠ k.erased ∧ seen.lookup k'.erased = none := by
        intro k' hk'
        have hlookup := hseen k' hk'
        rw [List.lookup_cons] at hlookup
        split at hlookup
        . cases hlookup
        . next hne => exact ⟨by simpa using hne, hlookup⟩
      rw [List.map_cons, List.nodup_cons, List.forall_mem_cons]
      refine ⟨⟨fun hmem => ?_, hnodup⟩, hnone, fun k' hk' => (hrest k' hk').2⟩
      obtain ⟨k', hk', heq⟩ := List.mem_map.mp hmem
      exact (hrest k' hk').1 heq

theorem exists_of_map_ne {α β γ : Type} {f : α → β} {g : α → γ} {as bs : List α}
    (hf : as.map f = bs.map f) (hg : as.map g ≠ bs.map g) :
    ∃ p ∈ as.zip bs, f p.1 = f p.2 ∧ g p.1 ≠ g p.2 := by
  induction as generalizing bs with
  | nil =>
    cases bs with
    | nil => exact absurd rfl hg
    | cons b bs => cases hf
  | cons a as ih =>
    cases bs with
    | nil => cases hf
    | cons b bs =>
      obtain ⟨hfirst, hrest⟩ := List.cons_eq_cons.mp hf
      -- the first places that differ are looked for from the front
      by_cases hsame : g a = g b
      . have hne : as.map g ≠ bs.map g := by
          intro heq
          rw [List.map_cons, List.map_cons, hsame, heq] at hg
          exact hg rfl
        obtain ⟨p, hp, hmimics⟩ := ih hrest hne
        exact ⟨p, List.mem_cons_of_mem _ hp, hmimics⟩
      . exact ⟨(a, b), List.mem_cons_self, hfirst, hsame⟩

section

variable {catalog : Catalog} {host : HostClass} {o : Outline} {constructors : List Constructor}
variable {getters : List Getter} {setters : List Setter}

theorem nodup_erased_of_ofClass (h : ofClass catalog host = .ok o)
    (hbody : o.body = .members constructors getters setters) :
    ([erasedHost host.name] :: constructors.map Constructor.erased).Nodup := by
  obtain ⟨entry, name, -, -, hof, -⟩ := ofClass_cases h
  rw [hbody] at hof
  obtain ⟨-, constants, hof, -⟩ | ⟨-, hof⟩ := bodyOf_cases hof
  . cases hof
  . obtain ⟨ks, bound, computed, ss, between, after, -, hcheck, -, -, -, hof⟩ := members_cases hof
    cases hof
    obtain ⟨hnodup, hseen⟩ := nodup_of_checkErased hcheck
    rw [List.nodup_cons]
    refine ⟨fun hmem => ?_, hnodup⟩
    obtain ⟨k, hk, heq⟩ := List.mem_map.mp hmem
    have hother := List.lookup_eq_none_iff.mp (hseen k hk) _ List.mem_cons_self
    exact bne_iff_ne.mp hother heq

theorem denotes_of_mem_targets (h : ofClass catalog host = .ok o)
    (hbody : o.body = .members constructors getters setters) {k : Constructor}
    (hk : k ∈ constructors) {t : ScalaType} (ht : t ∈ k.targets) :
    ∀ w ∈ t.wrappers, ∃ name, Denotes catalog o.package w name := by
  obtain ⟨p, hp, rfl⟩ := List.mem_map.mp ht
  have htype : p.type ∈ o.memberTypes := by
    rw [memberTypes, hbody]
    exact List.mem_append_left _ (List.mem_append_left _
      (List.mem_flatMap.mpr ⟨k, hk, List.mem_map_of_mem hp⟩))
  exact fun w hw => denotes_of_mem_memberTypes h htype (.inr hw)

/-- Two constructors of a class that are written with the same types have, at some place, types that
differ at run time though they are written alike. Where wrappers can be told apart, one of these is a
text that settings give and the other is not, so that constructors without such texts are written with
different types. -/
theorem signatures_alike (h : ofClass catalog host = .ok o)
    (hbody : o.body = .members constructors getters setters) :
    ([erasedHost host.name] :: constructors.map Constructor.erased).Nodup ∧
      (constructors.Pairwise fun k k' => k.signature = k'.signature →
        ∃ p ∈ k.targets.zip k'.targets, p.1.Mimics p.2 ∧
          (p.1.standardName? = none ∨ p.2.standardName? = none) ∧
          (catalog.IsLegible → p.1.isExternal ≠ p.2.isExternal)) ∧
      (catalog.IsLegible → (∀ k ∈ constructors, ∀ t ∈ k.targets, t.isExternal = false) →
        (constructors.map Constructor.signature).Nodup) := by
  have hnodup := nodup_erased_of_ofClass h hbody
  have hpairs : constructors.Pairwise fun k k' => k.signature = k'.signature →
      ∃ p ∈ k.targets.zip k'.targets, p.1.Mimics p.2 ∧
        (p.1.standardName? = none ∨ p.2.standardName? = none) ∧
        (catalog.IsLegible → p.1.isExternal ≠ p.2.isExternal) := by
    have herased := (List.pairwise_map.mp (List.nodup_cons.mp hnodup).2)
    refine herased.imp_of_mem fun {k k'} hk hk' hne hsignature => ?_
    rw [Constructor.erased_eq, Constructor.erased_eq] at hne
    obtain ⟨p, hp, hrender, hdiffer⟩ := exists_of_map_ne hsignature hne
    have hmimics : p.1.Mimics p.2 := ⟨hrender, hdiffer⟩
    refine ⟨p, hp, hmimics, ?_, fun hlegible => ?_⟩
    . by_contra hstandard
      rw [not_or, ← ne_eq, ← ne_eq, Option.ne_none_iff_exists', Option.ne_none_iff_exists']
        at hstandard
      obtain ⟨⟨name, hname⟩, name', hname'⟩ := hstandard
      exact ScalaType.not_mimics_of_standard hname hname' hmimics
    . obtain ⟨hp, hp'⟩ := List.of_mem_zip hp
      exact hmimics.isExternal_ne hlegible (denotes_of_mem_targets h hbody hk hp)
        (denotes_of_mem_targets h hbody hk' hp')
  refine ⟨hnodup, hpairs, fun hlegible hexternal => List.pairwise_map.mpr ?_⟩
  refine hpairs.imp_of_mem fun {k k'} hk hk' hpair hsignature => ?_
  obtain ⟨p, hp, -, -, hdiffer⟩ := hpair hsignature
  obtain ⟨hp, hp'⟩ := List.of_mem_zip hp
  -- where no type of a constructor is external, nothing is left to tell the two apart
  apply hdiffer hlegible
  rw [hexternal k hk _ hp, hexternal k' hk' _ hp']

end

def Body.constructors : Body → List Constructor
  | .enumeration _ => []
  | .members constructors _ _ => constructors

def pageRecord : Record where
  name := "p.Page"
  kind := .class
  constants := []
  modifiers := [.public]
  fields := []
  constructors := [⟨[⟨"size", "int", []⟩], [.public]⟩,
    ⟨[⟨"lines", "java.util.List<String>", []⟩], [.public]⟩]
  methods := []

def pageCatalog : Catalog :=
  Batch.Generator.remaining Batch.nestedSettings [] [pageRecord] fun _ => true

theorem signatures_alike_page :
    ∃ c outline constructors getters setters,
      Record.describe Batch.nestedSettings.markers [] pageRecord = .ok c ∧
      ofClass pageCatalog c = .ok outline ∧
      outline.body = .members constructors getters setters ∧
      constructors.map Constructor.targets = [[.scalar .int false], [.list (.scalar .string false)]] ∧
      (constructors.map Constructor.signature).Nodup := by
  have hrun : (Record.outlineOf Batch.nestedSettings.markers [] pageCatalog pageRecord).map
      (fun o => o.body.constructors.map Constructor.targets) =
        .ok [[.scalar .int false], [.list (.scalar .string false)]] := by decide +kernel
  obtain ⟨c, outline, hdescribe, houtline, htargets⟩ := Record.exists_outline_of_map hrun
  cases hbody : outline.body with
  | enumeration constants =>
    rw [hbody] at htargets
    cases htargets
  | members constructors getters setters =>
    rw [hbody] at htargets
    refine ⟨c, outline, constructors, getters, setters, hdescribe, houtline, hbody, htargets, ?_⟩
    refine (signatures_alike houtline hbody).2.2
      (Batch.isLegible_remaining Batch.parse_nestedText [] [pageRecord] _) ?_
    intro k hk t ht
    have hmem : k.targets ∈ constructors.map Constructor.targets := List.mem_map_of_mem hk
    have hnone : ∀ targets ∈ [[ScalaType.scalar .int false], [.list (.scalar .string false)]],
        ∀ t ∈ targets, t.isExternal = false := by decide
    exact hnone _ (htargets ▸ hmem) t ht

/-- Settings in which a class is replaced by a text that is written like a scalar. -/
def countSettings : Settings :=
  { Settings.standard with externalTypes := [("a.Count", "Int")] }

/-- A class that is made of a scalar, or of what settings write like it. -/
def countedClass : HostClass :=
  { HostClass.plain "p.Host" with
    constructors := [⟨[⟨"size", .plain .int⟩]⟩,
      ⟨[⟨"count", (HostType.object "a.Count").withNullable false⟩]⟩] }

def countedFile : GeneratedFile where
  path := "p/wrappers/Host.scala"
  content := String.join ([
    "// Code generated by wrapgen. DO NOT EDIT.",
    "// Source: p.Host",
    "",
    "package p.wrappers",
    "",
    "final class Host(val underlying: _root_.p.Host) \x7b",
    "  def this(size: Int) = this(new _root_.p.Host(size))",
    "",
    "  def this(count: Int) = this(new _root_.p.Host(count))",
    "",
    "  override def equals(other: Any): Boolean = other match \x7b",
    "    case that: Host => this.underlying == that.underlying",
    "    case _ => false",
    "  \x7d",
    "",
    "  override def hashCode(): Int = underlying.hashCode()",
    "",
    "  override def toString: String = s\"Host($\x7bunderlying\x7d)\"",
    "\x7d"
  ].map (· ++ "\n"))

/-- The two constructors pass for different ones, and are written with the same types. -/
theorem signatures_coincide :
    ∃ outline constructors getters setters,
      ofClass (Catalog.ofClasses countSettings [countedClass]).1 countedClass = .ok outline ∧
      outline.body = .members constructors getters setters ∧ outline.file = countedFile ∧
      constructors.map Constructor.erased = [["int"], ["Int"]] ∧
      constructors.map Constructor.signature = [["Int"], ["Int"]] := by
  have hrun : (ofClass (Catalog.ofClasses countSettings [countedClass]).1 countedClass).map
      (fun o => (o.file, o.body.constructors.map Constructor.erased,
        o.body.constructors.map Constructor.signature)) =
          .ok (countedFile, [["int"], ["Int"]], [["Int"], ["Int"]]) := by decide +kernel
  obtain ⟨outline, houtline, heq⟩ := map_eq_ok_iff.mp hrun
  obtain ⟨hfile, heq⟩ := Prod.mk.inj heq
  obtain ⟨herased, hsignature⟩ := Prod.mk.inj heq
  cases hbody : outline.body with
  | enumeration constants =>
    rw [hbody] at herased
    cases herased
  | members constructors getters setters =>
    rw [hbody] at herased hsignature
    exact ⟨outline, constructors, getters, setters, houtline, hbody, hfile, herased, hsignature⟩

end Outline

end Facade.Scala
