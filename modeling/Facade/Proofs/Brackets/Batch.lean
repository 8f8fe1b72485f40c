import Facade.Proofs.Brackets.Wrapper
import Facade.Proofs.Legality

/-!
This module contains the proof that the brackets in the files of a batch are nested. No name that comes
from a record or from settings has a bracket in it: names of classes, packages and exceptions are checked
when they are read, and those of members when names are given out for them.
-/

namespace Facade

open Text Host Outcome

namespace Host

theorem bracket_mem_decapitalize {c : Char} (hc : c ∈ brackets) {name : List Char} (h : c ∈ name) :
    c ∈ decapitalize name := by
  have hlower : ∀ c ∈ brackets, lower c = [c] := forall_brackets (by decide)
  unfold decapitalize
  split
  . cases h
  . rw [← List.mem_singleton.mp h, hlower c hc]
    exact List.mem_singleton_self c
  . split
    . exact h
    . obtain rfl | h := List.mem_cons.mp h
      . rw [hlower c hc]
        exact List.mem_append_left _ (List.mem_singleton_self c)
      . exact List.mem_append_right _ h

end Host

namespace Scala

theorem bare_of_isIdentifier {name : String} (h : Record.isIdentifier name.toList = true) :
    Bare name :=
  bare_of_isPathText (isPathText_of_isIdentifier h)

theorem bare_of_isQualifiedName {name : String} (h : Record.isQualifiedName name = true) :
    Bare name :=
  bare_of_isPathText (isPathText_of_isQualifiedName h)

theorem bare_safe {name safe : String} (h : safeName? name = some safe) : Bare safe :=
  bare_of_isPathText (isPathText_of_safeName? h)

theorem GivenFor.bare_base {base name : String} (h : GivenFor base name) : Bare base := by
  obtain ⟨free, hfree, hsafe⟩ := h
  have hbare : Bare free := by
    obtain ⟨hreserved, -⟩ | ⟨-, hidentifier, -⟩ := safeName?_cases hsafe
    . have hwords : ∀ word ∈ reservedWords, Bare word := by decide
      exact hwords free (List.contains_iff_mem.mp hreserved)
    . exact bare_of_isIdentifier (hostIdentifier_of_isIdentifier hidentifier)
  obtain rfl | hfree := List.mem_cons.mp hfree
  . exact hbare
  . obtain ⟨n, -, rfl⟩ := List.mem_map.mp hfree
    rw [Bare, String.toList_append] at hbare
    exact (List.forall_mem_append.mp hbare).1

theorem GivenFor.bare_name {base name : String} (h : GivenFor base name) : Bare name := by
  obtain ⟨free, -, hsafe⟩ := h
  exact bare_safe hsafe

end Scala

namespace Record

theorem bare_of_propertyOf? {rest : List Char} {property : String}
    (h : propertyOf? rest = some property) (hbare : Bare property) : ∀ c ∈ rest, c ∉ brackets := by
  unfold propertyOf? at h
  split at h
  . cases h
  . split at h
    . cases h
      rw [Bare, String.toList_ofList] at hbare
      exact fun c hc hbracket => hbare c (bracket_mem_decapitalize hbracket hc) hbracket
    . cases h

theorem bare_of_getterProperty? {method property : String} {isBoolean : Bool}
    (h : getterProperty? method isBoolean = some property) (hbare : Bare property) :
    Bare method := by
  unfold getterProperty? at h
  split at h
  . cases h
  . obtain ⟨rest, hrest, h⟩ := Option.bind_eq_some_iff.mp h
    have hword : ∃ word, Bare word ∧ method.toList = word.toList ++ rest := by
      unfold getterRest? at hrest
      split at hrest
      . next hget =>
        cases hrest
        exact ⟨"get", by decide, dropStart?_eq_some hget⟩
      . split at hrest
        . exact ⟨"is", by decide, dropStart?_eq_some hrest⟩
        . cases hrest
    obtain ⟨word, hword, hmethod⟩ := hword
    rw [Bare, hmethod]
    exact List.forall_mem_append.mpr ⟨hword, bare_of_propertyOf? h hbare⟩

theorem bare_of_propertyOf {m : HostClass.Method} (h : Bare (Scala.Outline.propertyOf m)) :
    Bare m.name := by
  unfold Scala.Outline.propertyOf at h
  cases hproperty : getterProperty? m.name m.returns.isBoolean with
  | some property =>
    rw [hproperty, Option.getD_some] at h
    exact bare_of_getterProperty? hproperty h
  | none =>
    rw [hproperty, Option.getD_none, Bare, String.toList_ofList] at h
    exact fun c hc hbracket => h c (bracket_mem_decapitalize hbracket hc) hbracket

variable {markers : Settings.Markers} {enums : List String} {r : Record} {c : HostClass}
variable {catalog : Catalog} {o : Outline}

open Scala

/-- The names that a wrapper is written with for members are without brackets: for a method that it calls
either a name is given out, or one is for the property that the method reads. -/
theorem bare_of_spelled (hclass : r.isEnum = false) (hdescribe : describe markers enums r = .ok c)
    {constructors : List Outline.Constructor} {getters : List Outline.Getter}
    {setters : List Outline.Setter} (h : Outline.Spelled c constructors getters setters) :
    (∀ k ∈ constructors, ∀ q ∈ k.parameters, Bare q.name) ∧
      (∀ g ∈ getters, Bare g.hostMethod ∧ Bare g.name) ∧
      ∀ s ∈ setters, Bare s.hostMethod ∧ Bare s.name := by
  refine ⟨?_, ?_, ?_⟩
  . intro k hk q hq
    obtain ⟨base, hgiven⟩ := h.parameters k hk q hq
    exact hgiven.bare_name
  . intro g hg
    obtain ⟨f, hf, -, m, hm, hgiven, hmethod⟩ | ⟨m, -, hgiven, hmethod⟩ := h.getters g hg
    . obtain ⟨isBoolean, hproperty⟩ := exists_getterProperty?_of_getterFor? hclass hdescribe hf hm
      rw [hmethod]
      exact ⟨bare_of_getterProperty? hproperty hgiven.bare_base, hgiven.bare_name⟩
    . rw [hmethod]
      exact ⟨bare_of_propertyOf hgiven.bare_base, hgiven.bare_name⟩
  . intro s hs
    obtain ⟨f, -, -, m, -, hgiven, hmethod⟩ := h.setters s hs
    rw [hmethod]
    exact ⟨hgiven.bare_base, hgiven.bare_name⟩

theorem bare_of_mem_words (hdescribe : describe markers enums r = .ok c)
    (houtline : Outline.ofClass catalog c = .ok o) : ∀ word ∈ o.words, Bare word := by
  unfold Outline.words
  split
  . next constants hbody =>
    simp only [List.forall_mem_flatMap, List.forall_mem_cons]
    intro k hk
    obtain ⟨-, hconstants⟩ := constants_of_ofClass houtline hbody
    obtain ⟨-, hgiven⟩ := Outline.forall_of_constants Outline.givenFor_of_claimName hconstants k hk
    exact ⟨hgiven.bare_base, hgiven.bare_name, nofun⟩
  . next constructors getters setters hbody =>
    obtain ⟨hclass, hspelled⟩ := spelled_of_ofClass houtline hbody
    obtain ⟨hparameters, hgetters, hsetters⟩ :=
      bare_of_spelled (isEnum_of_describe hdescribe hclass) hdescribe hspelled
    simp only [List.forall_mem_append, List.forall_mem_flatMap, List.forall_mem_map,
      List.forall_mem_cons]
    exact ⟨⟨hparameters, fun g hg => ⟨(hgetters g hg).1, (hgetters g hg).2, nofun⟩⟩,
      fun s hs => ⟨(hsetters s hs).1, (hsetters s hs).2, nofun⟩⟩

end Record

namespace Batch

open Scala

variable {text : String} {settings : Settings} {records : List Record} {result : Result}
variable {catalog : Catalog} {outlines : List Outline}

theorem Outlined.bare_reference (hparse : Settings.parse text = .ok settings)
    (h : Outlined settings records result catalog outlines) {name : String} {entry : Catalog.Entry}
    (hentry : catalog.get? name = some entry) (package : String) :
    Bare (reference entry package) := by
  obtain ⟨o, ho, hreference⟩ := h.exists_reference_eq hentry package
  obtain ⟨_, -, -, -, -, hname⟩ := h.exists_entry ho
  obtain ⟨-, hpackage, -⟩ := h.isQualifiedName hparse ho
  have hroot : Bare rootStart := by decide
  have hpath := bare_escapePath (bare_of_isQualifiedName hpackage)
  rw [hreference]
  split
  . exact bare_safe hname
  . exact ((hroot.append hpath).append (by decide)).append (bare_safe hname)

theorem Outlined.nests_typeFor (hparse : Settings.parse text = .ok settings)
    (h : Outlined settings records result catalog outlines)
    (hexternal : ∀ name expression, (name, expression) ∈ catalog.externalTypes → Nested expression)
    {package : String} {host : HostType} {type : ScalaType}
    (htype : typeFor catalog package host = .ok type) : type.Nests := by
  have hhereditary : Hereditary ScalaType.Nests catalog package :=
    { scalar := fun s boxed => trivial
      named := by
        intro name type hnamed
        unfold namedType? at hnamed
        split at hnamed
        . next entry hentry =>
          have hreference := (h.bare_reference hparse hentry package).nested
          rw [← Option.some.inj hnamed, wrapperType]
          split <;> exact hreference
        . obtain ⟨expression, hexpression, rfl⟩ := Option.map_eq_some_iff.mp hnamed
          exact hexternal name expression (Data.Dictionary.mem_of_get? hexpression)
      missing := (by decide : Nested "Any")
      list := fun element helement => helement
      set := fun element helement => helement
      map := fun key value hkey hvalue => ⟨hkey, hvalue⟩ }
  exact hhereditary.typeFor host type htype

theorem Outlined.nests (hparse : Settings.parse text = .ok settings)
    (h : Outlined settings records result catalog outlines)
    (hexternal : ∀ name expression, (name, expression) ∈ catalog.externalTypes → Nested expression)
    {o : Outline} (ho : o ∈ outlines) : o.Nests := by
  obtain ⟨hclass, hpackage, hexceptions⟩ := h.isQualifiedName hparse ho
  obtain ⟨_, -, -, -, -, hname⟩ := h.exists_entry ho
  obtain ⟨r, -, c, hdescribe, houtline⟩ := h.described o ho
  constructor
  . exact bare_of_isQualifiedName hclass
  . exact bare_of_isQualifiedName hpackage
  . exact bare_safe hname
  . exact Record.bare_of_mem_words hdescribe houtline
  . exact fun e he => bare_of_isQualifiedName (hexceptions e he)
  . intro type htype
    obtain ⟨host, optional, hstands⟩ := Outline.stands_of_mem_memberTypes houtline htype
    have hmapped := h.nests_typeFor hparse hexternal hstands.mapped
    rw [hstands.target, withNullable]
    split <;> exact hmapped

/-- The brackets in every file of a batch are nested, those in comments and texts included, if they are
in the types that settings give for classes. -/
theorem brackets_nested (hparse : Settings.parse text = .ok settings)
    (hexternal : ∀ name expression, (name, expression) ∈ settings.externalTypes → Nested expression)
    (h : Yields settings records result) {name : String} {file : GeneratedFile}
    (hmem : (name, file) ∈ result.generated) : Nested file.content := by
  obtain ⟨catalog, outlines, houtlined, hsettings⟩ := h.exists_outlined_of_settings
  rw [← hsettings] at hexternal
  rw [houtlined.generated] at hmem
  obtain ⟨o, ho, heq⟩ := List.mem_map.mp hmem
  cases heq
  exact (houtlined.nests hparse hexternal ho).nested_content

def stampText : String :=
  "[external_types]\n\"q.Stamp\" = \"q.Stamp[(Int, Long)]\"\n"

def stampSettings : Settings :=
  { Settings.standard with externalTypes := [("q.Stamp", "q.Stamp[(Int, Long)]")] }

theorem parse_stampText : Settings.parse stampText = .ok stampSettings := by
  have htree : Toml.parse stampText = some (.ofEntries
      [("external_types", .ofEntries [("q.Stamp", .text "q.Stamp[(Int, Long)]")])]) := by
    rw [Toml.parse, stampText]
    simp only [String.reduceToList]
    with_unfolding_all rfl
  rw [Settings.parse, htree]
  rfl

def stampRecord : Record :=
  Report.readerRecord "p.Album"
    [("getStamps", "java.util.Map<java.lang.String, java.util.List<q.Stamp>>")]

def stampFile : GeneratedFile where
  path := "p/wrappers/Album.scala"
  content := String.join ([
    "// Code generated by wrapgen. DO NOT EDIT.",
    "// Source: p.Album",
    "",
    "package p.wrappers",
    "",
    "import scala.jdk.CollectionConverters._",
    "import scala.collection.immutable.ListMap",
    "",
    "final class Album(val underlying: _root_.p.Album) \x7b",
    "  /** Computed by `getStamps()`. */",
    "  def stamps: Option[Map[String, List[q.Stamp[(Int, Long)]]]] =",
    "    Option(underlying.getStamps()).map(e0 => " ++
      "ListMap.from(e0.asScala.iterator.map \x7b case (k1, v1) => (k1, v1.asScala.toList) \x7d))",
    "",
    "  override def equals(other: Any): Boolean = other match \x7b",
    "    case that: Album => this.stamps == that.stamps",
    "    case _ => false",
    "  \x7d",
    "",
    "  override def hashCode(): Int = Seq[Any](stamps).##",
    "",
    "  override def toString: String = s\"Album(stamps=$\x7bstamps\x7d)\"",
    "\x7d"
  ].map (· ++ "\n"))

set_option maxRecDepth 10000 in
/-- Some of the brackets in the wrapper of the class are from settings. -/
theorem brackets_nested_stamps :
    Settings.parse stampText = .ok stampSettings ∧
    (∀ name expression, (name, expression) ∈ stampSettings.externalTypes → Nested expression) ∧
    ∃ result, Yields stampSettings [stampRecord] result ∧
      result.generated = [("p.Album", stampFile)] ∧ Nested stampFile.content := by
  have hexternal : ∀ name expression,
      (name, expression) ∈ stampSettings.externalTypes → Nested expression := by
    intro name expression hmem
    cases List.mem_singleton.mp hmem
    decide
  have houtcome : (outcomeOf stampSettings [stampRecord]).map (·.generated) =
      .ok [("p.Album", stampFile)] := by decide +kernel
  obtain ⟨result, hyields, hgenerated⟩ := exists_yields_of_map houtcome
  have hmem : ("p.Album", stampFile) ∈ result.generated := by
    rw [hgenerated]
    exact List.mem_singleton_self _
  exact ⟨parse_stampText, hexternal, result, hyields, hgenerated,
    brackets_nested parse_stampText hexternal hyields hmem⟩

end Batch

end Facade
