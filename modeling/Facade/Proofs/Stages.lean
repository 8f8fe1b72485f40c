import Facade.Batch.Pipeline
import Facade.Proofs.Extraction
import Facade.Proofs.Generation

/-!
This module contains the proofs about what the stages of a batch hand over: every record has become
a class of the generator or a failure, whoever observes the stages.
-/

namespace Facade.Batch

open Data Host Outcome Scala
open MonadAttach (CanReturn)

section

variable {m : Type → Type} [Monad m] [LawfulMonad m] [MonadAttach m] [LawfulMonadAttach m]
variable {ε ε' α β : Type}

theorem canReturn_adapt {x : ExceptT ε m α} {f : ε → ε'} {a : α}
    (h : CanReturn (x.adapt f) a) : CanReturn x a := by
  obtain ⟨result, hresult, heq⟩ := LawfulMonadAttach.canReturn_map_imp' (m := m) h
  cases result with
  | error e => cases heq
  | ok a' =>
    cases heq
    exact hresult

theorem eq_ok_of_canReturn_liftExcept {x : Except ε α} {a : α}
    (h : CanReturn (liftExcept x : ExceptT ε m α) a) : x = .ok a := by
  cases x with
  | error e => cases LawfulMonadAttach.eq_of_canReturn_pure (m := m) h
  | ok a' => rw [LawfulMonadAttach.eq_of_canReturn_pure h]

/-- Whether calling an observer leaves the state of a batch as it is. -/
structure Observer.IsSilent (o : Observer m) : Prop where
  before : ∀ stage state state', CanReturn (o.before stage state) state' → state' = state
  after : ∀ stage state state', CanReturn (o.after stage state) state' → state' = state

theorem foldlM_silent {f : β → α → ExceptT ε m β} {items : List α}
    (hf : ∀ item ∈ items, ∀ b b', CanReturn (f b item) b' → b' = b) {b b' : β}
    (h : CanReturn (items.foldlM f b) b') : b' = b := by
  induction items generalizing b with
  | nil => exact (LawfulMonadAttach.eq_of_canReturn_pure h).symm
  | cons item items ih =>
    rw [List.foldlM_cons] at h
    obtain ⟨b'', hitem, hitems⟩ := LawfulMonadAttach.canReturn_bind_imp' h
    rw [← hf item List.mem_cons_self b b'' hitem]
    exact ih (fun item hitem => hf item (List.mem_cons_of_mem _ hitem)) hitems

namespace Pipeline

variable {p : Pipeline m}

theorem runStage_silent (hsilent : ∀ o ∈ p.observers, o.IsSilent) {stage : Stage}
    {state state' : State} (h : CanReturn (p.runStage state stage) state') :
    stage.run state = .ok state' := by
  unfold runStage at h
  obtain ⟨before, hbefore, h⟩ := LawfulMonadAttach.canReturn_bind_imp' h
  obtain ⟨next, hnext, hafter⟩ := LawfulMonadAttach.canReturn_bind_imp' h
  have hstate : before = state := by
    apply foldlM_silent _ hbefore
    intro o ho b b' hb
    exact (hsilent o ho).before _ b b' (canReturn_adapt hb)
  have hstate' : state' = next := by
    apply foldlM_silent _ hafter
    intro o ho b b' hb
    exact (hsilent o ho).after _ b b' (canReturn_adapt hb)
  rw [hstate', ← hstate]
  exact mapError_eq_ok_iff.mp (eq_ok_of_canReturn_liftExcept hnext)

theorem stages_silent (hsilent : ∀ o ∈ p.observers, o.IsSilent) {stages : List Stage}
    {state state' : State} (h : CanReturn (stages.foldlM p.runStage state) state') :
    stages.foldlM (fun state stage => stage.run state) state = .ok state' := by
  induction stages generalizing state with
  | nil =>
    rw [LawfulMonadAttach.eq_of_canReturn_pure h]
    rfl
  | cons stage stages ih =>
    rw [List.foldlM_cons] at h ⊢
    obtain ⟨next, hstage, hstages⟩ := LawfulMonadAttach.canReturn_bind_imp' h
    rw [runStage_silent hsilent hstage]
    exact ih hstages

theorem isSilent_of_mem_default : ∀ o ∈ ({} : Pipeline Id).observers, o.IsSilent :=
  List.forall_mem_nil _

/-- A batch that has gone through its stages has the classes of its records, its catalog, and the
failures of both. -/
theorem run_cases (hsilent : ∀ o ∈ p.observers, o.IsSilent) (hadded : p.added = [])
    {settings : Settings} {records : List Record} {state : State}
    (h : CanReturn (p.run settings records) state) :
    ∃ extraction registered notices,
      extraction = Record.extract settings.markers records ∧
      registered = Catalog.ofClasses settings extraction.classes ∧
      state = {
        settings
        records
        classes := some (extraction.classes.filter fun c => registered.1.has c.name)
        catalog := some registered.1
        failures := extraction.failures ++ registered.2
        notices
      } := by
  have hstages := stages_silent hsilent h
  unfold stages at hstages
  rw [hadded] at hstages
  obtain ⟨validated, hvalidate, hstages⟩ := bind_eq_ok_iff.mp hstages
  simp only [Stage.validate] at hvalidate
  split at hvalidate
  . cases hvalidate
  . cases hvalidate
    cases hstages
    exact ⟨_, _, _, rfl, rfl, rfl⟩

end Pipeline

end

/-- What holds of a generator for a batch: every record of the batch is one of its classes or has
failed, and never both. -/
structure Generator.Prepared (settings : Settings) (records : List Record) (g : Generator) :
    Prop where
  wellFormed : g.WellFormed
  perm : (g.classes.map HostClass.name ++ g.failures.map Failure.className).Perm
    (records.map Record.name)
  sublist : (g.classes.map HostClass.name).Sublist (records.map Record.name).eraseDups
  externalTypes : g.catalog.externalTypes = settings.externalTypes

theorem Generator.classes_ofCatalog (classes : List HostClass) (catalog : Catalog)
    (failures : List Failure) (jobs : Nat) :
    (ofCatalog (classes.filter fun c => catalog.has c.name) catalog failures jobs).classes =
      classes.filter fun c => (catalog.rejectNames isUnavailable).1.has c.name := by
  unfold ofCatalog
  dsimp only
  rw [List.filter_filter]
  apply List.filter_congr
  intro c _
  rw [Bool.and_eq_left_iff_imp, Catalog.has_iff, Catalog.has_iff]
  intro hmem
  exact ((Catalog.rejectNames_sublist isUnavailable catalog).map Prod.fst).subset hmem

theorem Generator.wellFormed_ofCatalog {settings : Settings} {classes : List HostClass}
    {draft : Catalog.Draft} (hdraft : draft.Sound settings classes)
    (hnodup : (classes.map HostClass.name).Nodup) (failures : List Failure) (jobs : Nat) :
    (ofCatalog (classes.filter fun c => draft.catalog.has c.name) draft.catalog failures
      jobs).WellFormed := by
  have hkept := Catalog.rejectNames_sublist isUnavailable draft.catalog
  have hcatalog := hdraft.wellFormed.sublist hkept
  constructor
  . exact hcatalog
  . rw [classes_ofCatalog]
    apply Catalog.covers_filter hcatalog.ordered hnodup
    intro name hname
    apply hdraft.perm.subset
    exact List.mem_append_left _ ((hkept.map Prod.fst).subset hname)

theorem Generator.perm_ofCatalog {settings : Settings} {classes : List HostClass}
    {draft : Catalog.Draft} (hdraft : draft.Sound settings classes)
    (hnodup : (classes.map HostClass.name).Nodup) (failures : List Failure) (jobs : Nat)
    {g : Generator} (hg : g = ofCatalog (classes.filter fun c => draft.catalog.has c.name)
      draft.catalog (failures ++ draft.failures) jobs) :
    (g.classes.map HostClass.name ++ g.failures.map Failure.className).Perm
      (classes.map HostClass.name ++ failures.map Failure.className) := by
  have hwell : g.WellFormed := by
    rw [hg]
    exact wellFormed_ofCatalog hdraft hnodup _ jobs
  have hcatalog : g.catalog = (draft.catalog.rejectNames isUnavailable).1 := by rw [hg, ofCatalog]
  have hfailures : g.failures = failures ++ draft.failures ++
      (draft.catalog.rejectNames isUnavailable).2 := by rw [hg, ofCatalog]
  have hcovers := hwell.covers
  rw [Catalog.Covers, hcatalog] at hcovers
  -- each of the three steps keeps the number of times that a name is there
  rw [hfailures, List.perm_iff_count]
  intro name
  have hkept := hcovers.count_eq name
  have hrejected := (hdraft.wellFormed.rejectNames_perm isUnavailable).count_eq name
  have hregistered := hdraft.perm.count_eq name
  simp only [List.map_append, List.count_append] at hrejected hregistered ⊢
  omega

theorem Generator.prepared_ofCatalog {settings : Settings} {records : List Record} {jobs : Nat}
    {extraction : Record.Extraction} {registered : Catalog × List Failure}
    (hextraction : extraction = Record.extract settings.markers records)
    (hregistered : registered = Catalog.ofClasses settings extraction.classes) :
    (ofCatalog (extraction.classes.filter fun c => registered.1.has c.name) registered.1
      (extraction.failures ++ registered.2) jobs).Prepared settings records := by
  have hnodup : (extraction.classes.map HostClass.name).Nodup := by
    rw [hextraction]
    exact (Record.describeAll_nodup _ _ [] records).1
  have hdescribed : (extraction.classes.map HostClass.name ++
      extraction.failures.map Failure.className).Perm (records.map Record.name) := by
    rw [hextraction]
    exact Record.describeAll_perm _ _ [] records
  have horder : (extraction.classes.map HostClass.name).Sublist
      (records.map Record.name).eraseDups := by
    rw [hextraction]
    simpa using! Record.describeAll_sublist settings.markers (Record.enumNames records) [] records
  -- each record is described or refused, and each class described is registered or refused
  obtain ⟨draft, hdraft, heq⟩ := Catalog.ofClasses_sound settings hnodup
  rw [hregistered, heq]
  constructor
  . exact wellFormed_ofCatalog hdraft hnodup _ jobs
  . exact (perm_ofCatalog hdraft hnodup extraction.failures jobs rfl).trans hdescribed
  . rw [classes_ofCatalog]
    exact ((List.filter_sublist).map HostClass.name).trans horder
  . exact hdraft.external

theorem Generator.prepared_of_run {m : Type → Type} [Monad m] [LawfulMonad m] [MonadAttach m]
    [LawfulMonadAttach m] {p : Pipeline m} (hsilent : ∀ o ∈ p.observers, o.IsSilent)
    (hadded : p.added = []) {settings : Settings} {records : List Record} {state : State}
    (hrun : CanReturn (p.run settings records) state) {g : Generator}
    (hg : ofState state = .ok g) : g.Prepared settings records := by
  obtain ⟨extraction, registered, notices, hextraction, hregistered, rfl⟩ :=
    Pipeline.run_cases hsilent hadded hrun
  cases hg
  exact prepared_ofCatalog hextraction hregistered

theorem Generator.Prepared.withWorkers {settings : Settings} {records : List Record} {g : Generator}
    (h : g.Prepared settings records) (jobs processors : Nat) :
    Prepared settings records { g with jobs, processors } where
  wellFormed := ⟨h.wellFormed.catalog, h.wellFormed.covers⟩
  perm := h.perm
  sublist := h.sublist
  externalTypes := h.externalTypes

theorem Generator.prepared_of_default {settings : Settings} {records : List Record} {state : State}
    {g : Generator} (hrun : (({} : Pipeline Id).run settings records).run = .ok state)
    (hg : ofState state = .ok g) (jobs processors : Nat) :
    Prepared settings records { g with jobs, processors } := by
  exact (prepared_of_run Pipeline.isSilent_of_mem_default rfl hrun hg).withWorkers jobs processors

end Facade.Batch
