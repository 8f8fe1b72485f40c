import Facade.Proofs.Closure
import Facade.Proofs.Results
import Facade.Scala.Wrapper

/-!
This module contains the outlines that the files of a batch are written from: those of the classes that
are left in the catalog, and of no others.
-/

namespace Facade

open Data Host Outcome Scala

theorem Catalog.test_of_get?_rejectNames {test : String → Bool} {catalog : Catalog} {name : String}
    {entry : Entry} (h : (catalog.rejectNames test).1.get? name = some entry) :
    test entry.name = false := by
  have hmem := (List.mem_filter.mp (Dictionary.mem_of_get? h)).2
  simpa using hmem

namespace Batch

theorem Generator.isUnavailable_of_get? {settings : Settings} {enums : List String}
    {records : List Record} {name : String} {entry : Catalog.Entry}
    (h : (ofRecords settings enums records).catalog.get? name = some entry) :
    isUnavailable entry.name = false :=
  Catalog.test_of_get?_rejectNames h

/-- What the files of a batch are written from: the outlines of described classes against the catalog
that is left in the end, in which every class has a file. -/
structure Outlined (settings : Settings) (records : List Record) (result : Result)
    (catalog : Catalog) (outlines : List Outline) : Prop where
  generated : result.generated = outlines.map fun o => (o.className, o.file)
  described : ∀ o ∈ outlines, ∃ r ∈ records, ∃ c,
    Record.describe settings.markers (Record.enumNames records) r = .ok c ∧
      Outline.ofClass catalog c = .ok o
  comesFrom : catalog.ComesFrom settings (Record.enumNames records) records
  available : ∀ name entry, catalog.get? name = some entry → isUnavailable entry.name = false
  closed : ∀ name entry, catalog.get? name = some entry → name ∈ outlines.map Outline.className

variable {settings : Settings} {records : List Record} {result : Result}

theorem exists_eq_map {α β : Type} {P : α → Prop} {f : α → β} {bs : List β}
    (h : ∀ b ∈ bs, ∃ a, P a ∧ b = f a) : ∃ as : List α, bs = as.map f ∧ ∀ a ∈ as, P a := by
  induction bs with
  | nil => exact ⟨[], rfl, nofun⟩
  | cons b bs ih =>
    rw [List.forall_mem_cons] at h
    obtain ⟨⟨a, ha, rfl⟩, hrest⟩ := h
    obtain ⟨as, rfl, has⟩ := ih hrest
    exact ⟨a :: as, rfl, List.forall_mem_cons.mpr ⟨ha, has⟩⟩

theorem Yields.exists_outlined_of_settings (h : Yields settings records result) :
    ∃ catalog outlines, Outlined settings records result catalog outlines ∧
      catalog.externalTypes = settings.externalTypes := by
  obtain ⟨jobs, processors, hresult⟩ := h.cases
  have hwell := Generator.wellFormed_ofRecords settings (Record.enumNames records) records
  have hfrom := Generator.comesFrom_ofRecords settings (Record.enumNames records) records
  obtain ⟨added, hsound⟩ := Generator.sound_of_generate hwell.withWorkers hresult
  have houtlines : ∀ e ∈ result.generated, ∃ o : Outline, (∃ r ∈ records, ∃ c,
      Record.describe settings.markers (Record.enumNames records) r = .ok c ∧
        Outline.ofClass ((Generator.ofRecords settings (Record.enumNames records)
          records).catalog.restrict fun name => !(added.map Failure.className).contains name) c =
            .ok o) ∧ e = (o.className, o.file) := by
    rintro ⟨name, file⟩ hmem
    obtain ⟨c, hc, rfl, hfile⟩ := hsound.file name file hmem
    obtain ⟨outline, houtline, hfile⟩ := bind_eq_ok_iff.mp hfile
    obtain ⟨r, hr, hdescribe⟩ := Generator.described_of_mem_ofRecords hc
    obtain ⟨entry, wrapper, -, -, -, ho⟩ := Outline.ofClass_cases houtline
    refine ⟨outline, ⟨r, hr, c, hdescribe, houtline⟩, ?_⟩
    rw [← Except.ok.inj hfile, ho]
  obtain ⟨outlines, hgenerated, hdescribed⟩ := exists_eq_map houtlines
  refine ⟨_, outlines, ⟨hgenerated, hdescribed, hfrom.restrict _, ?_, ?_⟩,
    Generator.externalTypes_ofRecords _ _ _⟩
  -- names that failed were taken out of the catalog for the last round
  . intro name entry hentry
    rw [Catalog.get?_restrict] at hentry
    split at hentry
    . exact Generator.isUnavailable_of_get? hentry
    . cases hentry
  . intro name entry hentry
    rw [Catalog.get?_restrict] at hentry
    split at hentry
    . next hkept =>
      have hmem : name ∈ result.generated.map Prod.fst := by
        rw [hsound.mem_generated_iff hwell.withWorkers]
        exact ⟨Catalog.mem_keys_iff.mpr ⟨entry, hentry⟩, by simpa using hkept⟩
      rwa [hgenerated, List.map_map] at hmem
    . cases hentry

theorem Yields.exists_outlined (h : Yields settings records result) :
    ∃ catalog outlines, Outlined settings records result catalog outlines := by
  obtain ⟨catalog, outlines, houtlined, -⟩ := h.exists_outlined_of_settings
  exact ⟨catalog, outlines, houtlined⟩

namespace Outlined

variable {catalog : Catalog} {outlines : List Outline}

theorem map_className (h : Outlined settings records result catalog outlines) :
    outlines.map Outline.className = result.generated.map Prod.fst := by
  rw [h.generated, List.map_map]
  rfl

theorem exists_entry (h : Outlined settings records result catalog outlines) {o : Outline}
    (ho : o ∈ outlines) : ∃ entry, catalog.get? o.className = some entry ∧
      entry.package = o.package ∧ o.package = settings.wrapperPackage (packageOf o.className) ∧
      entry.name = pascalCase (simpleNameOf o.className) ∧ safeName? entry.name = some o.name := by
  obtain ⟨r, -, c, -, houtline⟩ := h.described o ho
  obtain ⟨entry, name, hentry, hname, -, ho⟩ := Outline.ofClass_cases houtline
  obtain ⟨r', -, c', -, hclass, rfl⟩ := h.comesFrom _ _ hentry
  rw [Catalog.Entry.ofClass, pascalCase_pascalCase] at hname
  refine ⟨Catalog.Entry.ofClass settings c', ?_, ?_, ?_, ?_, ?_⟩
  . rw [ho]
    exact hentry
  . rw [ho]
  . rw [ho, ← hclass]
    rfl
  . rw [ho, ← hclass]
    rfl
  . rw [ho]
    exact hname

/-- A class of the catalog is referred to by name in the package of its wrapper, and from the root
elsewhere. -/
theorem exists_reference_eq (h : Outlined settings records result catalog outlines) {name : String}
    {entry : Catalog.Entry} (hentry : catalog.get? name = some entry) (package : String) :
    ∃ o ∈ outlines, reference entry package =
      if o.package = package then o.name
      else rootStart ++ escapePath o.package ++ "." ++ o.name := by
  obtain ⟨o, ho, rfl⟩ := List.mem_map.mp (h.closed name entry hentry)
  obtain ⟨entry', hentry', hpackage, -, -, hname⟩ := h.exists_entry ho
  rw [hentry] at hentry'
  cases hentry'
  exact ⟨o, ho, by rw [reference, hname, Option.getD_some, hpackage]⟩

/-- The wrappers that the members of a wrapper use are those with outlines themselves. They are referred
to by name in their own package, and from the root elsewhere. -/
theorem exists_reference (h : Outlined settings records result catalog outlines) {o : Outline}
    (ho : o ∈ outlines) {type : Outline.MemberType} (htype : type ∈ o.memberTypes) {w : ScalaType}
    (hw : w ∈ type.target.wrappers) : ∃ o' ∈ outlines, w.render =
      if o'.package = o.package then o'.name
      else rootStart ++ escapePath o'.package ++ "." ++ o'.name := by
  obtain ⟨r, -, c, -, houtline⟩ := h.described o ho
  obtain ⟨name, entry, hentry, hwrapper⟩ :=
    Outline.denotes_of_mem_memberTypes houtline htype (.inr hw)
  rw [hwrapper, render_wrapperType]
  exact h.exists_reference_eq hentry o.package

end Outlined

end Batch

end Facade
