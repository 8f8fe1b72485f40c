import Facade.Proofs.Alike.Outline
import Facade.Proofs.Generation

/-!
This module contains the proofs that compare two generations round by round: those of classes that
stand for each other, and those of the same classes in different orders.
-/

namespace Facade.Batch

open Host Scala Outcome

namespace Progress

variable {p p' q q' : Progress} {first first' : List Failure}

theorem pendingClasses_eq_nil_iff :
    p.pendingClasses = [] ↔ ∀ status ∈ p.classes.map Prod.snd, status.isPending = false := by
  rw [pendingClasses, List.map_eq_nil_iff, List.filter_eq_nil_iff, List.forall_mem_map]
  simp only [Bool.not_eq_true]

/-- What every round keeps true of two batches is true of both when nothing is pending in either. -/
theorem run_relates {R : Progress → Progress → Prop}
    (hround : ∀ p p', R p p' → R p.round p'.round)
    (hpending : ∀ p p', R p p' → (p.pendingClasses = [] ↔ p'.pendingClasses = []))
    {workers workers' fuel : Nat} (h : R p p') (hq : p.run workers fuel = .ok q)
    (hq' : p'.run workers' fuel = .ok q') : R q q' := by
  induction fuel generalizing p p' with
  | zero =>
    cases hq
    cases hq'
    exact h
  | succ fuel ih =>
    -- both runs are done after the same number of rounds
    by_cases hnone : p.pendingClasses = []
    . rw [run_of_pendingClasses_eq_nil hnone] at hq
      rw [run_of_pendingClasses_eq_nil ((hpending p p' h).mp hnone)] at hq'
      cases hq
      cases hq'
      exact h
    . have hnone' := (hpending p p' h).not.mp hnone
      rw [run, if_neg (by simpa using hnone)] at hq
      rw [run, if_neg (by simpa using hnone')] at hq'
      obtain ⟨next, hstep, hq⟩ := bind_eq_ok_iff.mp hq
      obtain ⟨next', hstep', hq'⟩ := bind_eq_ok_iff.mp hq'
      obtain ⟨-, rfl⟩ := step_eq_ok hstep
      obtain ⟨-, rfl⟩ := step_eq_ok hstep'
      exact ih (hround p p' h) hq hq'

/-- Whether the classes of two batches stand for each other, as do the failures that have come after
those at the start. -/
structure Alike (first first' : List Failure) (p p' : Progress) : Prop where
  classes : List.Forall₂ (fun e e' => e.1.Interchangeable e'.1 ∧ e.2 = e'.2) p.classes p'.classes
  catalog : p.catalog = p'.catalog
  failures : ∃ added, p.failures = first ++ added ∧ p'.failures = first' ++ added

theorem verdict_of_interchangeable (catalog : Catalog) {e e' : HostClass × Status}
    (h : e.1.Interchangeable e'.1 ∧ e.2 = e'.2) :
    (verdict catalog e).1.Interchangeable (verdict catalog e').1 ∧
      (verdict catalog e).2 = (verdict catalog e').2 := by
  obtain ⟨c, status⟩ := e
  obtain ⟨c', status'⟩ := e'
  obtain ⟨hc, rfl⟩ := h
  cases status with
  | pending =>
    unfold verdict
    dsimp only at hc ⊢
    rw [hc.generateFile]
    split <;> exact ⟨hc, rfl⟩
  | generated file => exact ⟨hc, rfl⟩
  | failed => exact ⟨hc, rfl⟩

theorem failure?_of_interchangeable (catalog : Catalog) {e e' : HostClass × Status}
    (h : e.1.Interchangeable e'.1 ∧ e.2 = e'.2) : failure? catalog e' = failure? catalog e := by
  obtain ⟨c, status⟩ := e
  obtain ⟨c', status'⟩ := e'
  obtain ⟨hc, rfl⟩ := h
  cases status with
  | pending =>
    unfold failure?
    dsimp only at hc ⊢
    rw [hc.generateFile, hc.name]
  | generated file => rfl
  | failed => rfl

theorem reopen_of_interchangeable (dropped : List String) {e e' : HostClass × Status}
    (h : e.1.Interchangeable e'.1 ∧ e.2 = e'.2) :
    (reopen dropped e).1.Interchangeable (reopen dropped e').1 ∧
      (reopen dropped e).2 = (reopen dropped e').2 := by
  obtain ⟨c, status⟩ := e
  obtain ⟨c', status'⟩ := e'
  obtain ⟨hc, rfl⟩ := h
  cases status with
  | pending => exact ⟨hc, rfl⟩
  | generated file =>
    unfold reopen
    dsimp only at hc ⊢
    rw [funext hc.references]
    split <;> exact ⟨hc, rfl⟩
  | failed => exact ⟨hc, rfl⟩

theorem Alike.newFailures (h : p.Alike first first' p') : p.newFailures = p'.newFailures := by
  unfold Progress.newFailures
  rw [h.catalog]
  exact (filterMap_eq_of_forall₂ h.classes fun e e' he =>
    failure?_of_interchangeable p'.catalog he).symm

theorem Alike.round (h : p.Alike first first' p') : p.round.Alike first first' p'.round := by
  have hdropped : p.dropped = p'.dropped := congrArg (List.map Failure.className) h.newFailures
  unfold Progress.round
  rw [hdropped, h.catalog, h.newFailures]
  constructor <;> dsimp only
  . apply List.rel_map _ h.classes
    exact fun e e' he => reopen_of_interchangeable _ (verdict_of_interchangeable _ he)
  . obtain ⟨added, hadded, hadded'⟩ := h.failures
    refine ⟨added ++ p'.newFailures, ?_, ?_⟩
    . rw [hadded, List.append_assoc]
    . rw [hadded', List.append_assoc]

theorem Alike.pendingClasses_eq_nil_iff (h : p.Alike first first' p') :
    p.pendingClasses = [] ↔ p'.pendingClasses = [] := by
  rw [Progress.pendingClasses_eq_nil_iff, Progress.pendingClasses_eq_nil_iff,
    map_eq_of_forall₂ h.classes fun e e' he => he.2.symm]

theorem Alike.found (h : p.Alike first first' p') : p.found = p'.found := by
  refine (filterMap_eq_of_forall₂ h.classes ?_).symm
  intro e e' he
  rw [fileOf?, fileOf?, he.1.name, he.2]

/-- Whether two batches are the same but for the order of their classes. -/
structure Permuted (p p' : Progress) : Prop where
  classes : p.classes.Perm p'.classes
  catalog : p.catalog = p'.catalog
  failures : p.failures.Perm p'.failures

theorem Permuted.newFailures (h : p.Permuted p') : p.newFailures.Perm p'.newFailures := by
  unfold Progress.newFailures
  rw [h.catalog]
  exact h.classes.filterMap _

theorem reopen_congr {dropped dropped' : List String} (h : dropped.Perm dropped') :
    reopen dropped = reopen dropped' := by
  funext e
  obtain ⟨c, status⟩ := e
  cases status with
  | pending => rfl
  | generated file => rw [reopen, reopen, h.any_eq]
  | failed => rfl

theorem Permuted.round (h : p.Permuted p') : p.round.Permuted p'.round := by
  have hdropped : p.dropped.Perm p'.dropped := h.newFailures.map Failure.className
  unfold Progress.round
  rw [reopen_congr hdropped, h.catalog]
  constructor <;> dsimp only
  . exact h.classes.map _
  . rw [Catalog.foldl_erase, Catalog.foldl_erase]
    congr 1
    funext name
    rw [Bool.eq_iff_iff]
    simp [hdropped.mem_iff]
  . exact h.failures.append h.newFailures

theorem Permuted.pendingClasses_eq_nil_iff (h : p.Permuted p') :
    p.pendingClasses = [] ↔ p'.pendingClasses = [] := by
  simp only [Progress.pendingClasses_eq_nil_iff, (h.classes.map Prod.snd).mem_iff]

end Progress

namespace Generator

variable {g g' : Generator} {result result' : Result}

theorem generate_of_alike (hresult : g.generate = .ok result)
    (hresult' : g'.generate = .ok result') (hg : g.WellFormed) (hg' : g'.WellFormed)
    (hclasses : List.Forall₂ HostClass.Interchangeable g.classes g'.classes)
    (hcatalog : g.catalog = g'.catalog) :
    result.generated = result'.generated ∧
      ∃ added, result.failures = g.failures ++ added ∧ result'.failures = g'.failures ++ added := by
  obtain ⟨workers, q, hq, -, -, hgenerated, hfailures⟩ := generate_cases hg hresult
  obtain ⟨workers', q', hq', -, -, hgenerated', hfailures'⟩ := generate_cases hg' hresult'
  have hstart : g.start.Alike g.failures g'.failures g'.start := by
    refine ⟨?_, hcatalog, [], (List.append_nil _).symm, (List.append_nil _).symm⟩
    exact List.rel_map (fun c c' hc => ⟨hc, rfl⟩) hclasses
  rw [← hclasses.length_eq] at hq'
  have hend : q.Alike g.failures g'.failures q' :=
    Progress.run_relates (fun p p' h => h.round) (fun p p' h => h.pendingClasses_eq_nil_iff) hstart
      hq hq'
  rw [hgenerated, hgenerated', hfailures, hfailures']
  exact ⟨hend.found, hend.failures⟩

/-- Classes in another order get the same files and the same failures, each in another order. -/
theorem generate_of_perm (hresult : g.generate = .ok result)
    (hresult' : g'.generate = .ok result') (hg : g.WellFormed) (hg' : g'.WellFormed)
    (hclasses : g.classes.Perm g'.classes) (hcatalog : g.catalog = g'.catalog)
    (hfailures : g.failures.Perm g'.failures) :
    result.generated.Perm result'.generated ∧ result.failures.Perm result'.failures := by
  obtain ⟨workers, q, hq, -, -, hgenerated, hfound⟩ := generate_cases hg hresult
  obtain ⟨workers', q', hq', -, -, hgenerated', hfound'⟩ := generate_cases hg' hresult'
  have hstart : g.start.Permuted g'.start := ⟨hclasses.map _, hcatalog, hfailures⟩
  rw [← hclasses.length_eq] at hq'
  have hend : q.Permuted q' :=
    Progress.run_relates (fun p p' h => h.round) (fun p p' h => h.pendingClasses_eq_nil_iff) hstart
      hq hq'
  rw [hgenerated, hgenerated', hfound, hfound']
  exact ⟨hend.classes.filterMap _, hend.failures⟩

end Generator

end Facade.Batch
