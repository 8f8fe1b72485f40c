import Facade.Files.Store
import Facade.Proofs.Stages
import Facade.Report.Generate

/-!
This module contains the proofs about what a batch comes to: every record has a file or a failure,
and reports count all of them.
-/

namespace Facade

open Batch Host Outcome
open MonadAttach (CanReturn)

namespace Batch.Generator

theorem Prepared.accounts {settings : Settings} {records : List Record} {g : Generator}
    (h : g.Prepared settings records) {result : Result} (hresult : g.generate = .ok result) :
    (result.generated.map Prod.fst ++ result.failures.map Failure.className).Perm
        (records.map Record.name) ∧
      (result.generated.map Prod.fst).Sublist (records.map Record.name).eraseDups := by
  obtain ⟨added, hsound⟩ := sound_of_generate h.wellFormed hresult
  constructor
  . rw [List.perm_iff_count]
    intro name
    have hrecords := h.perm.count_eq name
    have hclasses := hsound.perm.count_eq name
    rw [hsound.failures]
    simp only [List.map_append, List.count_append] at hrecords hclasses ⊢
    omega
  . exact hsound.sublist.trans h.sublist

end Batch.Generator

namespace Report

theorem generate_cases {state : State} {jobs : Option Nat} {result : Result}
    (h : generate state jobs = .ok result) :
    ∃ g, Generator.ofState state = .ok g ∧ (g.withJobs jobs).generate = .ok result := by
  obtain ⟨g, hg, h⟩ := bind_eq_ok_iff.mp h
  exact ⟨g, hg, mapError_eq_ok_iff.mp h⟩

section

variable {m : Type → Type} [Monad m] [LawfulMonad m] [MonadAttach m] [LawfulMonadAttach m]

theorem filer_isSilent [Files.Access m] (directory : Files.Path) :
    (Snapshot.filer directory : Observer m).IsSilent where
  before := by
    intro stage state state' h
    exact (LawfulMonadAttach.eq_of_canReturn_pure h).symm
  after := by
    intro stage state state' h
    obtain ⟨_, -, hreturn⟩ := LawfulMonadAttach.canReturn_bind_imp' h
    exact (LawfulMonadAttach.eq_of_canReturn_pure hreturn).symm

theorem length_of_canReturn_mapM {ε α β : Type} {f : α → ExceptT ε m β} {items : List α}
    {results : List β} (h : CanReturn (items.mapM f) results) : results.length = items.length := by
  induction items generalizing results with
  | nil =>
    rw [List.mapM_nil] at h
    rw [← LawfulMonadAttach.eq_of_canReturn_pure h]
    rfl
  | cons item items ih =>
    rw [List.mapM_cons] at h
    obtain ⟨result, -, h⟩ := LawfulMonadAttach.canReturn_bind_imp' h
    obtain ⟨rest, hrest, h⟩ := LawfulMonadAttach.canReturn_bind_imp' h
    rw [← LawfulMonadAttach.eq_of_canReturn_pure h, List.length_cons, List.length_cons, ih hrest]

variable [Files.Access m]

theorem count_deliver {options : Options} {result : Result} {report : Generation}
    (h : CanReturn (deliver options result : ExceptT Trouble m Product) report.product) :
    report.count = result.generated.length := by
  unfold deliver at h
  dsimp only at h
  split at h
  . have hproduct := LawfulMonadAttach.eq_of_canReturn_pure h
    unfold Generation.count
    rw [← hproduct]
    exact List.length_map _
  . obtain ⟨outcomes, houtcomes, h⟩ := LawfulMonadAttach.canReturn_bind_imp' h
    have hproduct := LawfulMonadAttach.eq_of_canReturn_pure h
    unfold Generation.count
    rw [← hproduct]
    dsimp only
    rw [List.length_zipWith, List.length_map, length_of_canReturn_mapM houtcomes, Nat.min_self]

theorem generateBatch_run {settings : Settings} {records : List Record} {options : Options}
    {report : Generation}
    (h : CanReturn (generateBatch settings records options : ExceptT Trouble m Generation) report) :
    ∃ (p : Pipeline m) (state : State) (g : Generator) (result : Result),
      (∀ o ∈ p.observers, o.IsSilent) ∧ p.added = [] ∧ CanReturn (p.run settings records) state ∧
      Generator.ofState state = .ok g ∧ (g.withJobs options.jobs).generate = .ok result ∧
      report.records = records.length ∧ report.count = result.generated.length ∧
      report.failures = result.failures := by
  obtain ⟨state, hstate, h⟩ := LawfulMonadAttach.canReturn_bind_imp' h
  obtain ⟨result, hresult, h⟩ := LawfulMonadAttach.canReturn_bind_imp' h
  obtain ⟨product, hproduct, h⟩ := LawfulMonadAttach.canReturn_bind_imp' h
  obtain ⟨g, hg, hgenerate⟩ := generate_cases (eq_ok_of_canReturn_liftExcept hresult)
  have hreport := LawfulMonadAttach.eq_of_canReturn_pure h
  have hsilent : ∀ o ∈ if options.visualize then [Snapshot.filer options.snapshots] else [],
      Observer.IsSilent (m := m) o := by
    intro o ho
    split at ho
    . rw [List.mem_singleton.mp ho]
      exact filer_isSilent _
    . cases ho
  refine ⟨_, state, g, result, hsilent, rfl, canReturn_adapt hstate, hg, hgenerate, ?_⟩
  subst hreport
  exact ⟨rfl, count_deliver hproduct, rfl⟩

theorem generateBatch_cases {settings : Settings} {records : List Record} {options : Options}
    {report : Generation}
    (h : CanReturn (generateBatch settings records options : ExceptT Trouble m Generation) report) :
    ∃ (g : Generator) (result : Result), g.Prepared settings records ∧ g.generate = .ok result ∧
      report.records = records.length ∧ report.count = result.generated.length ∧
      report.failures = result.failures := by
  obtain ⟨p, state, g, result, hsilent, hadded, hrun, hg, hresult, hreport⟩ := generateBatch_run h
  have hprepared := Generator.prepared_of_run hsilent hadded hrun hg
  exact ⟨g.withJobs options.jobs, result, hprepared.withWorkers _ _, hresult, hreport⟩

end

/-- Every record of a batch has a file or a failure, once for each time that it is there, and the
files come in the order of the records. A report counts all records. -/
theorem records_accounted (settings : Settings) (records : List Record) :
    (∀ (state : State) (g : Generator) (jobs processors : Nat) (result : Result),
      (({} : Pipeline Id).run settings records).run = .ok state →
      Generator.ofState state = .ok g →
      ({ g with jobs, processors } : Generator).generate = .ok result →
        (result.generated.map Prod.fst ++ result.failures.map Failure.className).Perm
          (records.map Record.name) ∧
        (result.generated.map Prod.fst).Sublist (records.map Record.name).eraseDups) ∧
    ∀ (m : Type → Type) [Monad m] [LawfulMonad m] [MonadAttach m] [LawfulMonadAttach m]
      [Files.Access m] (options : Options) (report : Generation),
      CanReturn (generateBatch settings records options : ExceptT Trouble m Generation) report →
        report.records = records.length ∧
        report.records = report.count + report.failures.length := by
  constructor
  . intro state g jobs processors result hrun hg hresult
    exact (Generator.prepared_of_default hrun hg jobs processors).accounts hresult
  . intro m _ _ _ _ _ options report h
    obtain ⟨g, result, hprepared, hresult, hrecords, hcount, hfailures⟩ := generateBatch_cases h
    have hlength := (hprepared.accounts hresult).1.length_eq
    rw [List.length_append, List.length_map, List.length_map, List.length_map] at hlength
    refine ⟨hrecords, ?_⟩
    rw [hrecords, hcount, hfailures, hlength]

theorem canReturn_of_run {ε α σ : Type} {x : ExceptT ε (StateM σ) α} {s : σ} {a : α}
    (h : (x.run s).1 = .ok a) : CanReturn x a :=
  ⟨s, (x.run s).2, Prod.ext h rfl⟩

def readerRecord (name : String) (getters : List (String × String)) : Record where
  name
  kind := .class
  constants := []
  modifiers := [.public]
  fields := []
  constructors := []
  methods := getters.map fun (name, returns) =>
    { name, returns, parameters := [], throws := [], annotations := [], modifiers := [.public] }

def mixedSettings : Settings :=
  { Settings.standard with externalTypes := [("q.Stamp", "q.Stamp")] }

def mixedRecords : List Record := [
  readerRecord "p.Parent" [("getChild", "p.Child")],
  readerRecord "p.parent" [],
  readerRecord "p.Child" [("getParent", "p.Parent"), ("getStamp", "q.Stamp")],
  readerRecord "p.Parent" [],
  readerRecord "p.Option" [],
  readerRecord "p.First" [("getSecond", "p.Second"), ("getParent", "p.Parent")],
  readerRecord "p.Second" [("getThird", "java.util.List<p.Third>"), ("getFirst", "p.First")],
  readerRecord "p.Third" [("getMissing", "q.Missing")],
  readerRecord "p.Broken" [("getNothing", "java.util.Map<")]
]

set_option maxRecDepth 10000 in
theorem mixedRecords_generated :
    (∃ state g result,
      (({} : Pipeline Id).run mixedSettings mixedRecords).run = .ok state ∧
      Generator.ofState state = .ok g ∧
      ({ g with jobs := 1, processors := 1 } : Generator).generate = .ok result ∧
      result.generated.map Prod.fst = ["p.Parent", "p.Child"]) ∧
    ∃ report, CanReturn (generateBatch mixedSettings mixedRecords { output := "out" } :
        ExceptT Trouble (StateM Files.Store) Generation) report ∧ report.count = 2 := by
  have hruns : (do
      let state ← (({} : Pipeline Id).run mixedSettings mixedRecords).run
      let g ← Generator.ofState state
      let result := ({ g with jobs := 1, processors := 1 } : Generator).generate
      (result.mapError Trouble.broken).map fun result => result.generated.map Prod.fst) =
        Except.ok ["p.Parent", "p.Child"] ∧
      (((generateBatch mixedSettings mixedRecords { output := "out" } :
        ExceptT Trouble (StateM Files.Store) Generation).run (Files.Store.within ["home"])).1.map
          Generation.count) = .ok 2 := by decide +kernel
  obtain ⟨hrun, hbatch⟩ := hruns
  obtain ⟨state, hstate, hrun⟩ := bind_eq_ok_iff.mp hrun
  obtain ⟨g, hg, hrun⟩ := bind_eq_ok_iff.mp hrun
  obtain ⟨result, hresult, hgenerated⟩ := map_eq_ok_iff.mp hrun
  obtain ⟨report, hreport, hcount⟩ := map_eq_ok_iff.mp hbatch
  exact ⟨⟨state, g, result, hstate, hg, mapError_eq_ok_iff.mp hresult, hgenerated⟩,
    report, canReturn_of_run hreport, hcount⟩

theorem mixedRecords_accounted :
    (∃ state g result,
      (({} : Pipeline Id).run mixedSettings mixedRecords).run = .ok state ∧
      Generator.ofState state = .ok g ∧
      ({ g with jobs := 1, processors := 1 } : Generator).generate = .ok result ∧
      result.generated.map Prod.fst = ["p.Parent", "p.Child"] ∧
      (result.generated.map Prod.fst ++ result.failures.map Failure.className).Perm
        (mixedRecords.map Record.name)) ∧
    ∃ report, CanReturn (generateBatch mixedSettings mixedRecords { output := "out" } :
        ExceptT Trouble (StateM Files.Store) Generation) report ∧
      report.count = 2 ∧ report.records = report.count + report.failures.length := by
  obtain ⟨⟨state, g, result, hrun, hg, hresult, hgenerated⟩, report, hreturn, hcount⟩ :=
    mixedRecords_generated
  obtain ⟨hresults, hreports⟩ := records_accounted mixedSettings mixedRecords
  constructor
  . exact ⟨state, g, result, hrun, hg, hresult, hgenerated,
      (hresults state g 1 1 result hrun hg hresult).1⟩
  . exact ⟨report, hreturn, hcount, (hreports _ _ report hreturn).2⟩

end Report

end Facade
