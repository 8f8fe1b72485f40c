import Facade.Proofs.Accounting
import Facade.Proofs.Outline.Spec
import Mathlib.Data.Finset.Dedup
import Mathlib.Data.Finset.Insert
import Mathlib.Order.Bounds.Basic

/-!
This module contains the proofs about which classes get a file: these refer to wrappers of each
other only, and they are the most that do so.
-/

namespace Facade.Batch

open Data Host Outcome Scala

namespace Generator

/-- Whether every class of a set gets a file when there are no other wrappers. -/
def SelfContained (g : Generator) (names : Finset String) : Prop :=
  ∀ name ∈ names, ∃ c ∈ g.classes, c.name = name ∧
    ∃ file, generateFile (g.catalog.restrict fun name => name ∈ names) c = .ok file

theorem Prepared.external?_eq_none {settings : Settings} {records : List Record} {g : Generator}
    (h : g.Prepared settings records)
    (hexternal : ∀ r ∈ records, settings.externalTypes.has r.name = false) {name : String}
    {entry : Catalog.Entry} (hentry : g.catalog.get? name = some entry) :
    g.catalog.external? name = none := by
  have hclass : name ∈ g.classes.map HostClass.name :=
    h.wellFormed.covers.mem_iff.mpr (Catalog.mem_keys_iff.mpr ⟨entry, hentry⟩)
  obtain ⟨r, hr, rfl⟩ := List.mem_map.mp (h.perm.subset (List.mem_append_left _ hclass))
  have hhas := hexternal r hr
  rw [Dictionary.has, Option.isSome_eq_false_iff, Option.isNone_iff_eq_none] at hhas
  rw [Catalog.external?, h.externalTypes]
  exact hhas

end Generator

variable {g : Generator} {result : Result} {added : List Failure}

theorem Result.Sound.mem_generated_iff (h : result.Sound g added) (hg : g.WellFormed)
    {name : String} : name ∈ result.generated.map Prod.fst ↔
      name ∈ g.catalog.entries.keys ∧ name ∉ added.map Failure.className := by
  have hnodup := h.perm.nodup_iff.mpr hg.nodup
  rw [List.nodup_append] at hnodup
  have hmem := h.perm.mem_iff (a := name)
  rw [List.mem_append, hg.covers.mem_iff] at hmem
  constructor
  . intro hname
    exact ⟨hmem.mp (.inl hname), fun hfailed => hnodup.2.2 name hname name hfailed rfl⟩
  . rintro ⟨hkey, hfailed⟩
    exact (hmem.mpr hkey).resolve_right hfailed

theorem Result.Sound.restrict_eq (h : result.Sound g added) (hg : g.WellFormed) :
    (g.catalog.restrict fun name => !(added.map Failure.className).contains name) =
      g.catalog.restrict fun name => name ∈ (result.generated.map Prod.fst).toFinset := by
  apply Catalog.restrict_congr
  intro name hname
  rw [Bool.eq_iff_iff, decide_eq_true_eq, List.mem_toFinset, h.mem_generated_iff hg,
    Bool.not_eq_true', ← Bool.not_eq_true, List.contains_iff_mem]
  exact ⟨fun hfailed => ⟨hname, hfailed⟩, And.right⟩

theorem Result.Sound.selfContained (h : result.Sound g added) (hg : g.WellFormed) :
    g.SelfContained (result.generated.map Prod.fst).toFinset := by
  intro name hname
  obtain ⟨⟨_, file⟩, hmem, rfl⟩ := List.mem_map.mp (List.mem_toFinset.mp hname)
  obtain ⟨c, hc, hcname, hfile⟩ := h.file _ file hmem
  rw [h.restrict_eq hg] at hfile
  exact ⟨c, hc, hcname, file, hfile⟩

/-- A wrapper that the types of an outline refer to is that of one class, which has a file. -/
theorem Result.Sound.denotes_iff (h : result.Sound g added) (hg : g.WellFormed) {c : HostClass}
    {outline : Outline}
    (houtline : Outline.ofClass
      (g.catalog.restrict fun name => !(added.map Failure.className).contains name) c = .ok outline)
    {type : Outline.MemberType} (htype : type ∈ outline.memberTypes) {w : ScalaType}
    (hw : w ∈ type.mapped.wrappers ∨ w ∈ type.target.wrappers) :
    ∃ used ∈ result.generated.map Prod.fst,
      ∀ other, Denotes g.catalog outline.package w other ↔ other = used := by
  obtain ⟨used, entry, hentry, hwrapper⟩ := Outline.denotes_of_mem_memberTypes houtline htype hw
  rw [Catalog.get?_restrict] at hentry
  split at hentry
  . next hkept =>
    have hdenotes : Denotes g.catalog outline.package w used := ⟨entry, hentry, hwrapper⟩
    refine ⟨used, ?_, fun other => ⟨fun hother => hother.unique hg.catalog hdenotes, ?_⟩⟩
    . rw [h.mem_generated_iff hg]
      refine ⟨Catalog.mem_keys_iff.mpr ⟨entry, hentry⟩, ?_⟩
      simpa using hkept
    . rintro rfl
      exact hdenotes
  . cases hentry

/-- Every file is the one that its class gets beside the classes that do not fail, and the wrappers
that its members refer to are those of classes with a file. -/
theorem generated_closed {settings : Settings} {records : List Record} {state : State}
    {g : Generator} {jobs processors : Nat} {result : Result}
    (hrun : (({} : Pipeline Id).run settings records).run = .ok state)
    (hg : Generator.ofState state = .ok g)
    (hresult : ({ g with jobs, processors } : Generator).generate = .ok result) :
    ∃ added, result.failures = g.failures ++ added ∧
      ∀ name file, (name, file) ∈ result.generated →
        ∃ c ∈ g.classes, c.name = name ∧
          ∃ outline, file = outline.file ∧
            Outline.ofClass ((added.map Failure.className).foldl
              (fun catalog name => catalog.erase name) g.catalog) c = .ok outline ∧
            ∀ type ∈ outline.memberTypes, ∀ w,
              w ∈ type.mapped.wrappers ∨ w ∈ type.target.wrappers →
                ∃ used ∈ result.generated.map Prod.fst,
                  ∀ other, Denotes g.catalog outline.package w other ↔ other = used := by
  have hwell := (Generator.prepared_of_default hrun hg jobs processors).wellFormed
  obtain ⟨added, hsound⟩ := Generator.sound_of_generate hwell hresult
  refine ⟨added, hsound.failures, ?_⟩
  intro name file hmem
  obtain ⟨c, hc, hname, hfile⟩ := hsound.file name file hmem
  obtain ⟨outline, houtline, hfile⟩ := bind_eq_ok_iff.mp hfile
  refine ⟨c, hc, hname, outline, (Except.ok.inj hfile).symm, ?_, ?_⟩
  . rw [Catalog.foldl_erase]
    exact houtline
  . intro type htype w hw
    exact hsound.denotes_iff hwell houtline htype hw

theorem mixedRecords_closed :
    ∃ (state : State) (g : Generator) (result : Result) (file : GeneratedFile) (outline : Outline),
      (({} : Pipeline Id).run Report.mixedSettings Report.mixedRecords).run = .ok state ∧
      Generator.ofState state = .ok g ∧
      ({ g with jobs := 1, processors := 1 } : Generator).generate = .ok result ∧
      ("p.Child", file) ∈ result.generated ∧ file = outline.file ∧
      ∀ type ∈ outline.memberTypes, ∀ w ∈ type.mapped.wrappers,
        ∃ used ∈ ["p.Parent", "p.Child"], Denotes g.catalog outline.package w used := by
  obtain ⟨⟨state, g, result, hrun, hg, hresult, hgenerated⟩, -⟩ := Report.mixedRecords_generated
  obtain ⟨added, -, hfiles⟩ := generated_closed hrun hg hresult
  have hchild : "p.Child" ∈ result.generated.map Prod.fst := by simp [hgenerated]
  obtain ⟨⟨name, file⟩, hmem, rfl⟩ := List.mem_map.mp hchild
  obtain ⟨c, -, -, outline, hfile, -, htypes⟩ := hfiles _ file hmem
  refine ⟨state, g, result, file, outline, hrun, hg, hresult, hmem, hfile, ?_⟩
  intro type htype w hw
  obtain ⟨used, hused, hdenotes⟩ := htypes type htype w (.inl hw)
  rw [hgenerated] at hused
  exact ⟨used, hused, (hdenotes used).mpr rfl⟩

/-- The classes with a file are the largest set whose classes all get one when there are no other
wrappers. -/
theorem isGreatest_generated {settings : Settings} {records : List Record} {state : State}
    {g : Generator} {jobs processors : Nat} {result : Result}
    (hexternal : ∀ r ∈ records, settings.externalTypes.has r.name = false)
    (hrun : (({} : Pipeline Id).run settings records).run = .ok state)
    (hg : Generator.ofState state = .ok g)
    (hresult : ({ g with jobs, processors } : Generator).generate = .ok result) :
    IsGreatest {names | g.SelfContained names} (result.generated.map Prod.fst).toFinset := by
  have hprepared := Generator.prepared_of_default hrun hg jobs processors
  obtain ⟨added, hsound⟩ := Generator.sound_of_generate hprepared.wellFormed hresult
  constructor
  . exact hsound.selfContained hprepared.wellFormed
  . intro names hnames name hname
    obtain ⟨c, hc, rfl, -⟩ := hnames name hname
    rw [List.mem_toFinset]
    refine Generator.mem_generated_of_selfContained hprepared.wellFormed
      (fun name entry hentry => hprepared.external?_eq_none hexternal hentry)
      (S := fun name => name ∈ names) ?_ hresult hc (decide_eq_true hname)
    -- a class of the set is the only one of its name
    intro c' hc' hin
    obtain ⟨c'', hc'', hcname, file, hfile⟩ := hnames c'.name (of_decide_eq_true hin)
    have heq : c'' = c' := List.inj_on_of_nodup_map hprepared.wellFormed.nodup hc'' hc' hcname
    exact ⟨file, heq ▸ hfile⟩

theorem mixedRecords_isGreatest :
    (∀ r ∈ Report.mixedRecords, Report.mixedSettings.externalTypes.has r.name = false) ∧
    ∃ state g,
      (({} : Pipeline Id).run Report.mixedSettings Report.mixedRecords).run = .ok state ∧
      Generator.ofState state = .ok g ∧
      IsGreatest {names | g.SelfContained names} {"p.Parent", "p.Child"} := by
  have hexternal :
      ∀ r ∈ Report.mixedRecords, Report.mixedSettings.externalTypes.has r.name = false := by
    decide
  obtain ⟨⟨state, g, result, hrun, hg, hresult, hgenerated⟩, -⟩ := Report.mixedRecords_generated
  refine ⟨hexternal, state, g, hrun, hg, ?_⟩
  have hgreatest := isGreatest_generated hexternal hrun hg hresult
  rw [hgenerated, List.toFinset_cons, List.toFinset_cons, List.toFinset_nil] at hgreatest
  exact hgreatest

end Facade.Batch
