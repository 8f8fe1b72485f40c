import Facade.Proofs.Outline.Written
import Facade.Proofs.Outlines

/-!
This module contains the proofs about when a wrapper hides a standard type: which names of standard types
the source of another wrapper in its package is written with, and which of them a wrapper can have.
-/

namespace Facade

open Text Host Outcome Scala

namespace Scala

open Outline

namespace ClassWrapper

theorem thrownNames_cases {exceptions : List String} {name : String}
    (h : name ∈ thrownNames exceptions) :
    name ∈ standardTypes ∨ ∃ e ∈ exceptions, simpleException? e = some name := by
  unfold thrownNames at h
  obtain h | h := List.mem_append.mp h
  . left
    obtain h | h := List.mem_append.mp h
    . split at h
      . cases h
      . next hne =>
        rw [caught, if_neg hne] at h
        have hstandard : ∀ name ∈ ["Either", "Right", "Left"], name ∈ standardTypes := by decide
        exact hstandard name h
    . split at h
      . rw [List.mem_singleton.mp h]
        decide
      . cases h
  . exact .inr (List.mem_filterMap.mp h)

theorem getterNames_cases {g : Getter} {name : String} (h : name ∈ getterNames g) :
    name ∈ standardTypes ∨ ∃ e ∈ g.throws, simpleException? e = some name := by
  obtain h | h := List.mem_append.mp h
  . exact .inl (ScalaType.standardNames_subset _ h)
  obtain h | h := List.mem_append.mp h
  . exact .inl (ScalaType.collectors_subset _ h)
  . exact thrownNames_cases h

theorem setterNames_cases {s : Setter} {name : String} (h : name ∈ setterNames s) :
    name ∈ standardTypes ∨ ∃ e ∈ s.throws, simpleException? e = some name := by
  obtain h | h := List.mem_append.mp h
  . exact .inl (ScalaType.standardNames_subset _ h)
  obtain h | h := List.mem_append.mp h
  . exact .inl (ScalaType.mem_standardTypes_of_mem_boxes h)
  obtain rfl | h := List.mem_cons.mp h
  . exact .inl (by decide)
  . exact thrownNames_cases h

theorem parameterNames_subset (p : Parameter) : parameterNames p ⊆ standardTypes :=
  List.append_subset.mpr ⟨ScalaType.standardNames_subset _,
    fun _ => ScalaType.mem_standardTypes_of_mem_boxes⟩

theorem comparedNames_subset (compared : List String) : comparedNames compared ⊆ standardTypes := by
  have hmembers : ["Any", "Boolean", "Int", "String"] ⊆ standardTypes := by decide
  refine List.append_subset.mpr ⟨hmembers, ?_⟩
  split
  . exact List.nil_subset _
  . exact List.cons_subset.mpr ⟨by decide, List.nil_subset _⟩

end ClassWrapper

theorem mem_exceptions_of_members {o : Outline} {constructors : List Constructor}
    {getters : List Getter} {setters : List Setter}
    (hbody : o.body = .members constructors getters setters) {e : String} :
    e ∈ o.exceptions ↔ (∃ g ∈ getters, e ∈ g.throws) ∨ ∃ s ∈ setters, e ∈ s.throws := by
  rw [exceptions, hbody]
  simp only [List.mem_append, List.mem_flatMap]

/-- The names that the source of a wrapper is written with are those of standard types, or of exceptions
that its members declare. -/
theorem standardNames_cases {o : Outline} {name : String} (h : name ∈ o.standardNames) :
    name ∈ standardTypes ∨ ∃ e ∈ o.exceptions, simpleException? e = some name := by
  unfold standardNames at h
  split at h
  . next constants hbody =>
    left
    obtain rfl | h := List.mem_cons.mp h
    . decide
    . split at h
      . rw [List.mem_singleton.mp h]
        decide
      . cases h
  . next constructors getters setters hbody =>
    simp only [List.mem_append, List.mem_flatMap] at h
    obtain ((⟨k, -, p, -, h⟩ | ⟨g, hg, h⟩) | ⟨s, hs, h⟩) | h := h
    . exact .inl (ClassWrapper.parameterNames_subset p h)
    . apply (ClassWrapper.getterNames_cases h).imp_right
      rintro ⟨e, he, hsimple⟩
      exact ⟨e, (mem_exceptions_of_members hbody).mpr (.inl ⟨g, hg, he⟩), hsimple⟩
    . apply (ClassWrapper.setterNames_cases h).imp_right
      rintro ⟨e, he, hsimple⟩
      exact ⟨e, (mem_exceptions_of_members hbody).mpr (.inr ⟨s, hs, he⟩), hsimple⟩
    . exact .inl (ClassWrapper.comparedNames_subset _ h)

/-- An exception of `java.lang` that a member declares is written by its simple name. -/
theorem mem_standardNames_of_mem_exceptions {o : Outline} {e name : String}
    (he : e ∈ o.exceptions) (hsimple : simpleException? e = some name) :
    name ∈ o.standardNames := by
  have hthrown : ∀ exceptions : List String, e ∈ exceptions →
      name ∈ ClassWrapper.thrownNames exceptions := fun exceptions he =>
    List.mem_append_right _ (List.mem_filterMap.mpr ⟨e, he, hsimple⟩)
  cases hbody : o.body with
  | enumeration constants =>
    rw [exceptions, hbody] at he
    cases he
  | members constructors getters setters =>
    rw [standardNames, hbody]
    apply List.mem_append_left
    obtain ⟨g, hg, he⟩ | ⟨s, hs, he⟩ := (mem_exceptions_of_members hbody).mp he
    . exact List.mem_append_left _ (List.mem_append_right _ (List.mem_flatMap.mpr
        ⟨g, hg, List.mem_append_right _ (List.mem_append_right _ (hthrown _ he))⟩))
    . exact List.mem_append_right _ (List.mem_flatMap.mpr
        ⟨s, hs, List.mem_append_right _ (List.mem_append_right _
          (List.mem_cons_of_mem _ (hthrown _ he)))⟩)

end Scala

/-- Whether a wrapper has the name of a standard type that another one is written with in its package. -/
def Scala.Outline.Hides (wrapper o : Outline) : Prop :=
  wrapper.package = o.package ∧ wrapper.name ∈ o.standardNames

namespace Batch

variable {settings : Settings} {records : List Record} {result : Result}
variable {catalog : Catalog} {outlines : List Outline}

theorem Outlined.name_not_mem (h : Outlined settings records result catalog outlines)
    {o : Outline} (ho : o ∈ outlines) :
    o.name ∉ standardTypes ∧ o.name ∉ Record.implicitExceptions := by
  have hfree : isUnavailable o.name = false := by
    obtain ⟨entry, hentry, -, -, -, hname⟩ := h.exists_entry ho
    obtain ⟨hreserved, heq⟩ | ⟨-, -, heq⟩ := safeName?_cases hname
    . have hwords : ∀ word ∈ reservedWords, isUnavailable (escaped word) = false := by decide
      rw [heq]
      exact hwords _ (List.contains_iff_mem.mp hreserved)
    . rw [heq]
      exact h.available _ entry hentry
  simpa [isUnavailable, hidesStandardType] using hfree

/--
The files of a batch are written with names of standard types, of which most are had by no wrapper at all.
A wrapper in the package of a file has one of these names just if a member that is written there declares
the exception of `java.lang` of this name and it is none of those that are kept for exceptions.
-/
theorem standard_hidden_iff (h : Yields settings records result) :
    ∃ catalog outlines, Outlined settings records result catalog outlines ∧
      ∀ o ∈ outlines, o.name ∉ standardTypes ∧
        (∀ name ∈ o.standardNames, Within name o.file.content) ∧
        ∀ o' ∈ outlines, o'.Hides o ↔ o'.package = o.package ∧
          "java.lang." ++ o'.name ∈ o.exceptions ∧ o'.name ∉ Record.implicitExceptions := by
  obtain ⟨catalog, outlines, houtlined⟩ := h.exists_outlined
  refine ⟨catalog, outlines, houtlined, fun o ho => ⟨(houtlined.name_not_mem ho).1,
    fun name => Outline.within_content_of_mem_standardNames, fun o' ho' => and_congr_right' ?_⟩⟩
  obtain ⟨entry, -, -, -, -, hname⟩ := houtlined.exists_entry ho'
  obtain ⟨hfree, hfree'⟩ := houtlined.name_not_mem ho'
  constructor
  . intro hmem
    obtain hstandard | ⟨e, he, hsimple⟩ := standardNames_cases hmem
    . exact absurd hstandard hfree
    . rw [← (simpleException?_eq_some.mp hsimple).1]
      exact ⟨he, hfree'⟩
  . rintro ⟨he, -⟩
    exact mem_standardNames_of_mem_exceptions he
      (simpleException?_eq_some.mpr ⟨rfl, dot_not_mem_of_safeName? hname⟩)

def sizeMethod (throws : List String) : Record.Method where
  name := "getSize"
  returns := "int"
  parameters := []
  throws
  annotations := []
  modifiers := [.public]

def sizeRecord (name : String) (throws : List String) : Record :=
  { Report.readerRecord name [] with methods := [sizeMethod throws] }

theorem mem_exceptions_sizeRecord {markers : Settings.Markers} {throws : List String}
    {name : String} {c : HostClass} {o : Outline}
    (hdescribe : Record.describe markers [] (sizeRecord name throws) = .ok c)
    (houtline : Outline.ofClass catalog c = .ok o) {e : String} : e ∈ o.exceptions ↔
      ∃ thrown ∈ throws, Record.readException (Record.methodName name "getSize") thrown = .ok e := by
  have hread : ((sizeMethod throws).read? []).isSome = true := by
    have hsame : (sizeMethod throws).read? [] = (sizeMethod []).read? [] := rfl
    rw [hsame]
    decide
  have hmethods : (sizeRecord name throws).publicMethods = [sizeMethod throws] := rfl
  have hreaders : (sizeRecord name throws).readers [] ++
      ((sizeRecord name throws).fieldAssigners []).map Prod.snd = [sizeMethod throws] := by
    rw [Record.readers, Record.readersAmong, hmethods,
      @List.filter_cons_of_pos _ (fun m : Record.Method => (m.read? []).isSome) _ _ hread]
    rfl
  rw [Record.mem_exceptions_iff rfl hdescribe houtline, hreaders]
  simp only [List.mem_singleton, exists_eq_left]
  rfl

def knownRecords : List Record :=
  [sizeRecord "p.Host" ["IllegalStateException"], sizeRecord "p.Item" []]

set_option maxRecDepth 10000 in
/-- An exception that is known by its simple name is hidden by no wrapper. -/
theorem standard_hidden_iff_known :
    ∃ result catalog outlines, Yields Settings.standard knownRecords result ∧
      Outlined Settings.standard knownRecords result catalog outlines ∧
      outlines.map Outline.className = ["p.Host", "p.Item"] ∧
      ∀ o ∈ outlines, ∀ o' ∈ outlines, ¬ o'.Hides o := by
  have houtcome : (outcomeOf Settings.standard knownRecords).map (fun result =>
      result.generated.map Prod.fst) = .ok ["p.Host", "p.Item"] := by decide +kernel
  obtain ⟨result, hyields, hgenerated⟩ := exists_yields_of_map houtcome
  obtain ⟨catalog, outlines, houtlined, hhidden⟩ := standard_hidden_iff hyields
  rw [← houtlined.map_className] at hgenerated
  refine ⟨result, catalog, outlines, hyields, houtlined, hgenerated, fun o ho o' ho' hhides => ?_⟩
  obtain ⟨-, he, hfree⟩ := ((hhidden o ho).2.2 o' ho').mp hhides
  obtain ⟨r, hr, c, hdescribe, houtline⟩ := houtlined.described o ho
  have hthrown : ∃ thrown ∈ ["IllegalStateException"],
      ∃ member, Record.readException member thrown = .ok ("java.lang." ++ o'.name) := by
    obtain rfl | hr := List.mem_cons.mp hr
    . obtain ⟨thrown, hmem, hread⟩ := (mem_exceptions_sizeRecord hdescribe houtline).mp he
      exact ⟨thrown, hmem, _, hread⟩
    . rw [List.mem_singleton.mp hr] at hdescribe
      obtain ⟨_, hmem, -⟩ := (mem_exceptions_sizeRecord hdescribe houtline).mp he
      cases hmem
  obtain ⟨_, hmem, member, hread⟩ := hthrown
  rw [List.mem_singleton.mp hmem] at hread
  have hexception : "java.lang." ++ "IllegalStateException" = "java.lang." ++ o'.name :=
    Except.ok.inj hread
  rw [← (String.append_right_inj _).mp hexception] at hfree
  exact hfree (by decide)

/-- A class whose method declares an exception by its full name, and a class of the simple name. -/
def hidingRecords : List Record :=
  [sizeRecord "p.Host" ["java.lang.LinkageError"], Report.readerRecord "p.LinkageError" []]

set_option maxRecDepth 10000 in
/-- The wrapper of a class hides an exception that another wrapper of its package is written with. -/
theorem exception_hidden :
    ∃ result catalog host error, Yields Settings.standard hidingRecords result ∧
      Outlined Settings.standard hidingRecords result catalog [host, error] ∧
      host.className = "p.Host" ∧ error.className = "p.LinkageError" ∧
      error.name = "LinkageError" ∧ error.Hides host ∧
      Within "LinkageError" host.file.content := by
  have houtcome : (outcomeOf Settings.standard hidingRecords).map (fun result =>
      result.generated.map Prod.fst) = .ok ["p.Host", "p.LinkageError"] := by decide +kernel
  obtain ⟨result, hyields, hgenerated⟩ := exists_yields_of_map houtcome
  obtain ⟨catalog, outlines, houtlined⟩ := hyields.exists_outlined
  rw [← houtlined.map_className] at hgenerated
  obtain ⟨host, rest, rfl, hhost, hrest⟩ := List.map_eq_cons_iff.mp hgenerated
  obtain ⟨error, rfl, herror⟩ := List.map_eq_singleton_iff.mp hrest
  obtain ⟨_, -, -, hpackage, -, -⟩ := houtlined.exists_entry List.mem_cons_self
  obtain ⟨entry, -, -, hpackage', hentry, hname⟩ :=
    houtlined.exists_entry (List.mem_cons_of_mem _ List.mem_cons_self)
  have hsafe : safeName? entry.name = some "LinkageError" := by
    rw [hentry, herror]
    decide
  have hexception : "java.lang.LinkageError" ∈ host.exceptions := by
    obtain ⟨r, hr, c, hdescribe, houtline⟩ := houtlined.described host List.mem_cons_self
    -- the outline of `p.Host` cannot come from the record of `p.LinkageError`
    obtain rfl | hr := List.mem_cons.mp hr
    . exact (mem_exceptions_sizeRecord hdescribe houtline).mpr ⟨_, List.mem_singleton_self _, rfl⟩
    . obtain ⟨_, _, -, -, -, heq⟩ := Outline.ofClass_cases houtline
      rw [List.mem_singleton.mp hr] at hdescribe
      have hother : host.className = "p.LinkageError" := by
        rw [heq]
        exact Record.describe_name hdescribe
      rw [hother] at hhost
      exact absurd hhost (by decide)
  have hwritten : "LinkageError" ∈ host.standardNames :=
    mem_standardNames_of_mem_exceptions hexception (simpleException?_eq_some.mpr (by decide))
  have herrorName : error.name = "LinkageError" := by
    rw [hname] at hsafe
    exact Option.some.inj hsafe
  refine ⟨result, catalog, host, error, hyields, houtlined, hhost, herror, herrorName, ⟨?_, ?_⟩,
    Outline.within_content_of_mem_standardNames hwritten⟩
  . rw [hpackage', hpackage, herror, hhost]
    decide
  . rw [herrorName]
    exact hwritten

end Batch

end Facade
