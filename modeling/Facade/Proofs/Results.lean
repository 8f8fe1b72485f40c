import Facade.Proofs.Accounting
import Facade.Proofs.Safety

/-!
This module contains the results that a batch of records yields, by way of the generator that its
stages come to.
-/

namespace Facade

open Data Host Outcome Scala

def Catalog.ComesFrom (settings : Settings) (enums : List String) (records : List Record)
    (catalog : Catalog) : Prop :=
  ∀ name entry, catalog.get? name = some entry → ∃ r ∈ records, ∃ c,
    Record.describe settings.markers enums r = .ok c ∧ c.name = name ∧
      entry = Entry.ofClass settings c

theorem Catalog.ComesFrom.restrict {settings : Settings} {enums : List String}
    {records : List Record} {catalog : Catalog} (h : catalog.ComesFrom settings enums records)
    (keep : String → Bool) : (catalog.restrict keep).ComesFrom settings enums records := by
  intro name entry hentry
  rw [get?_restrict] at hentry
  split at hentry
  . exact h name entry hentry
  . cases hentry

namespace Batch

namespace Generator

variable {settings : Settings} {enums : List String} {records : List Record}

def ofExtraction (settings : Settings) (extraction : Record.Extraction) : Generator :=
  let registered := Catalog.ofClasses settings extraction.classes
  ofCatalog (extraction.classes.filter fun c => registered.1.has c.name) registered.1
    (extraction.failures ++ registered.2) settings.generator.jobs

/-- The generator for records, described where some classes are known to be enumerations. -/
def ofRecords (settings : Settings) (enums : List String) (records : List Record) : Generator :=
  ofExtraction settings (Record.describeAll settings.markers enums [] records)

/-- The stages of a batch come to the generator for its records, whoever observes them. -/
theorem eq_ofRecords_of_run {m : Type → Type} [Monad m] [LawfulMonad m] [MonadAttach m]
    [LawfulMonadAttach m] {p : Pipeline m} (hsilent : ∀ o ∈ p.observers, o.IsSilent)
    (hadded : p.added = []) {state : State} {g : Generator}
    (hrun : MonadAttach.CanReturn (p.run settings records) state) (hg : ofState state = .ok g) :
    g = ofRecords settings (Record.enumNames records) records := by
  obtain ⟨extraction, registered, notices, rfl, rfl, rfl⟩ := Pipeline.run_cases hsilent hadded hrun
  cases hg
  rfl

theorem eq_ofRecords {state : State} {g : Generator}
    (hrun : (({} : Pipeline Id).run settings records).run = .ok state)
    (hg : ofState state = .ok g) : g = ofRecords settings (Record.enumNames records) records :=
  eq_ofRecords_of_run Pipeline.isSilent_of_mem_default rfl hrun hg

theorem exists_draft (settings : Settings) (enums : List String) (records : List Record) :
    let extraction := Record.describeAll settings.markers enums [] records
    ∃ draft : Catalog.Draft, draft.Sound settings extraction.classes ∧
      ofRecords settings enums records =
        ofCatalog (extraction.classes.filter fun c => draft.catalog.has c.name) draft.catalog
          (extraction.failures ++ draft.failures) settings.generator.jobs := by
  obtain ⟨draft, hdraft, heq⟩ := Catalog.ofClasses_sound settings
    (Record.describeAll_nodup settings.markers enums [] records).1
  refine ⟨draft, hdraft, ?_⟩
  rw [ofRecords, ofExtraction, heq]

theorem wellFormed_ofRecords (settings : Settings) (enums : List String) (records : List Record) :
    (ofRecords settings enums records).WellFormed := by
  obtain ⟨draft, hdraft, heq⟩ := exists_draft settings enums records
  rw [heq]
  exact wellFormed_ofCatalog hdraft (Record.describeAll_nodup _ _ _ _).1 _ _

theorem externalTypes_ofRecords (settings : Settings) (enums : List String)
    (records : List Record) :
    (ofRecords settings enums records).catalog.externalTypes = settings.externalTypes := by
  obtain ⟨draft, hdraft, heq⟩ := exists_draft settings enums records
  rw [heq]
  exact hdraft.external

theorem comesFrom_ofRecords (settings : Settings) (enums : List String) (records : List Record) :
    (ofRecords settings enums records).catalog.ComesFrom settings enums records := by
  obtain ⟨draft, hdraft, heq⟩ := exists_draft settings enums records
  have hsub : (ofRecords settings enums records).catalog.entries.Sublist draft.catalog.entries := by
    rw [heq]
    exact Catalog.rejectNames_sublist isUnavailable draft.catalog
  intro name entry hentry
  obtain ⟨c, hc, hname, hof⟩ := hdraft.entries name entry
    (hdraft.ordered.get?_of_mem (hsub.subset (Dictionary.mem_of_get? hentry)))
  obtain ⟨r, hr, hdescribe⟩ := Record.describe_of_mem_describeAll hc
  exact ⟨r, hr, c, hdescribe, hname, hof⟩

theorem mem_describeAll_of_mem_ofRecords {c : HostClass}
    (h : c ∈ (ofRecords settings enums records).classes) :
    c ∈ (Record.describeAll settings.markers enums [] records).classes := by
  unfold ofRecords ofExtraction at h
  dsimp only at h
  rw [classes_ofCatalog] at h
  exact (List.mem_filter.mp h).1

theorem described_of_mem_ofRecords {c : HostClass}
    (h : c ∈ (ofRecords settings enums records).classes) :
    ∃ r ∈ records, Record.describe settings.markers enums r = .ok c :=
  Record.describe_of_mem_describeAll (mem_describeAll_of_mem_ofRecords h)

theorem intact_ofRecords {c : HostClass} (h : c ∈ (ofRecords settings enums records).classes) :
    c.Intact := by
  obtain ⟨r, -, hdescribe⟩ := described_of_mem_ofRecords h
  exact Record.intact_of_describe hdescribe

def withWorkers (jobs processors : Nat) (g : Generator) : Generator :=
  { g with jobs, processors }

section

variable {g : Generator} {jobs processors : Nat}

@[simp]
theorem classes_withWorkers : (g.withWorkers jobs processors).classes = g.classes := rfl

@[simp]
theorem catalog_withWorkers : (g.withWorkers jobs processors).catalog = g.catalog := rfl

@[simp]
theorem failures_withWorkers : (g.withWorkers jobs processors).failures = g.failures := rfl

theorem WellFormed.withWorkers (h : g.WellFormed) : (g.withWorkers jobs processors).WellFormed :=
  ⟨h.catalog, h.covers⟩

end

theorem exists_generate {g : Generator} (hg : g.WellFormed) (hintact : ∀ c ∈ g.classes, c.Intact) :
    ∃ result, g.generate = .ok result := by
  have hsafe : ∀ p : Progress, p.Sound g → p.IsSafe := fun p hp => hp.isSafe hg hintact
  obtain ⟨p, hp⟩ := Progress.run_of_isSafe hsafe (fun p hp => hp.round hg (hsafe p hp))
    (workerCount g.jobs g.processors) (g.classes.length + 1) (Progress.sound_start g)
  exact ⟨_, bind_eq_ok_iff.mpr ⟨p, hp, rfl⟩⟩

end Generator

/-- Whether a batch of records may come to a result, with some number of workers. -/
def Yields (settings : Settings) (records : List Record) (result : Result) : Prop :=
  ∃ state g, (({} : Pipeline Id).run settings records).run = .ok state ∧
    Generator.ofState state = .ok g ∧
    ∃ jobs processors, (g.withWorkers jobs processors).generate = .ok result

def outcomeOf (settings : Settings) (records : List Record) : Except Trouble Result := do
  let state ← (({} : Pipeline Id).run settings records).run
  let g ← Generator.ofState state
  (g.withWorkers 1 1).generate.mapError .broken

theorem yields_of_outcomeOf {settings : Settings} {records : List Record} {result : Result}
    (h : outcomeOf settings records = .ok result) : Yields settings records result := by
  obtain ⟨state, hrun, h⟩ := bind_eq_ok_iff.mp h
  obtain ⟨g, hg, hresult⟩ := bind_eq_ok_iff.mp h
  exact ⟨state, g, hrun, hg, 1, 1, mapError_eq_ok_iff.mp hresult⟩

theorem exists_yields_of_map {settings : Settings} {records : List Record} {α : Type} {f : Result → α}
    {a : α} (h : (outcomeOf settings records).map f = .ok a) :
    ∃ result, Yields settings records result ∧ f result = a := by
  obtain ⟨result, hresult, hvalue⟩ := map_eq_ok_iff.mp h
  exact ⟨result, yields_of_outcomeOf hresult, hvalue⟩

theorem Yields.cases {settings : Settings} {records : List Record} {result : Result}
    (h : Yields settings records result) : ∃ jobs processors,
      ((Generator.ofRecords settings (Record.enumNames records) records).withWorkers jobs
        processors).generate = .ok result := by
  obtain ⟨state, g, hrun, hg, hresult⟩ := h
  rw [← Generator.eq_ofRecords hrun hg]
  exact hresult

theorem Yields.accounts {settings : Settings} {records : List Record} {result : Result}
    (h : Yields settings records result) :
    (result.generated.map Prod.fst ++ result.failures.map Failure.className).Perm
      (records.map Record.name) := by
  obtain ⟨state, g, hrun, hg, jobs, processors, hresult⟩ := h
  exact ((Generator.prepared_of_default hrun hg jobs processors).accounts hresult).1

/-- Every file of a batch is that of an outline of the description of the first record for its class. -/
theorem Yields.outline_of_file {settings : Settings} {records : List Record} {result : Result}
    (h : Yields settings records result) {name : String} {file : GeneratedFile}
    (hmem : (name, file) ∈ result.generated) :
    ∃ r c catalog outline, records.find? (·.name == name) = some r ∧
      Record.describe settings.markers (Record.enumNames records) r = .ok c ∧ c.name = name ∧
        catalog.ComesFrom settings (Record.enumNames records) records ∧
        Outline.ofClass catalog c = .ok outline ∧ file = outline.file := by
  obtain ⟨jobs, processors, hresult⟩ := h.cases
  obtain ⟨added, hsound⟩ := Generator.sound_of_generate
    (Generator.wellFormed_ofRecords _ _ _).withWorkers hresult
  obtain ⟨c, hc, hname, hfile⟩ := hsound.file name file hmem
  obtain ⟨outline, houtline, hfile⟩ := bind_eq_ok_iff.mp hfile
  obtain ⟨-, r, hfirst, hdescribe⟩ :=
    Record.first_of_mem_describeAll (Generator.mem_describeAll_of_mem_ofRecords hc)
  rw [hname] at hfirst
  exact ⟨r, c, _, outline, hfirst, hdescribe, hname,
    (Generator.comesFrom_ofRecords settings _ records).restrict _, houtline,
    (Except.ok.inj hfile).symm⟩

theorem Yields.outline_of_mem {settings : Settings} {records : List Record} {result : Result}
    (h : Yields settings records result) {name : String} {file : GeneratedFile}
    (hmem : (name, file) ∈ result.generated) :
    ∃ r ∈ records, ∃ c catalog outline,
      Record.describe settings.markers (Record.enumNames records) r = .ok c ∧ c.name = name ∧
        catalog.ComesFrom settings (Record.enumNames records) records ∧
        Outline.ofClass catalog c = .ok outline ∧ file = outline.file := by
  obtain ⟨r, c, catalog, outline, hfirst, hfile⟩ := h.outline_of_file hmem
  exact ⟨r, List.mem_of_find?_eq_some hfirst, c, catalog, outline, hfile⟩

theorem Yields.outline_of_first {settings : Settings} {records : List Record} {result : Result}
    (h : Yields settings records result) {r : Record} {file : GeneratedFile}
    (hmem : (r.name, file) ∈ result.generated)
    (hfirst : records.find? (·.name == r.name) = some r) :
    ∃ c catalog outline,
      Record.describe settings.markers (Record.enumNames records) r = .ok c ∧
        catalog.ComesFrom settings (Record.enumNames records) records ∧
        Outline.ofClass catalog c = .ok outline ∧ file = outline.file := by
  obtain ⟨r', c, catalog, outline, hfirst', hdescribe, -, hfrom, houtline, hfile⟩ :=
    h.outline_of_file hmem
  cases hfirst'.symm.trans hfirst
  exact ⟨c, catalog, outline, hdescribe, hfrom, houtline, hfile⟩

theorem Yields.nodup_places {settings : Settings} {records : List Record} {result : Result}
    (h : Yields settings records result) :
    (result.generated.map fun e => Catalog.wrapperPlace settings e.1).Nodup := by
  obtain ⟨jobs, processors, hresult⟩ := h.cases
  have hwell := Generator.wellFormed_ofRecords settings (Record.enumNames records) records
  have hfrom := Generator.comesFrom_ofRecords settings (Record.enumNames records) records
  obtain ⟨added, hsound⟩ := Generator.sound_of_generate hwell.withWorkers hresult
  have hentry : ∀ name ∈ result.generated.map Prod.fst, ∃ entry,
      (Generator.ofRecords settings (Record.enumNames records) records).catalog.get? name =
        some entry ∧ Catalog.wrapperPlace settings name = (entry.package, entry.name) := by
    intro name hname
    have hclass := hsound.sublist.subset hname
    obtain ⟨entry, hentry⟩ := Catalog.mem_keys_iff.mp (hwell.covers.subset hclass)
    obtain ⟨r, -, c, -, rfl, rfl⟩ := hfrom name entry hentry
    exact ⟨_, hentry, rfl⟩
  have hplaces : ((result.generated.map Prod.fst).map (Catalog.wrapperPlace settings)).Nodup := by
    apply List.Nodup.map_on _ (hwell.nodup.sublist hsound.sublist)
    intro name hname name' hname' hplace
    obtain ⟨entry, hget, heq⟩ := hentry name hname
    obtain ⟨entry', hget', heq'⟩ := hentry name' hname'
    rw [heq, heq', Prod.mk.injEq] at hplace
    exact hwell.catalog.distinct name name' entry entry' hget hget' hplace.1 hplace.2
  rwa [List.map_map] at hplaces

theorem exists_yields (settings : Settings) (records : List Record) :
    ∃ result, Yields settings records result := by
  obtain ⟨state, hrun⟩ := Pipeline.exists_state_of_run settings records
  obtain ⟨g, hg⟩ := Generator.exists_ofState hrun
  have heq := Generator.eq_ofRecords hrun hg
  obtain ⟨result, hresult⟩ := Generator.exists_generate (g := g.withWorkers 1 1)
    (by rw [heq]; exact (Generator.wellFormed_ofRecords _ _ _).withWorkers)
    (by rw [heq]; exact fun c hc => Generator.intact_ofRecords hc)
  exact ⟨result, state, g, hrun, hg, 1, 1, hresult⟩

end Batch

end Facade
