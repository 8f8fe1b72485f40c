import Facade.Proofs.Generation
import Facade.Proofs.Pool.Progress

/-!
This module contains the proofs that what workers find together depends neither on their number nor
on the order of their steps.
-/

namespace Facade.Batch

open Outcome

namespace Progress

/-- What may become of a batch whose workers take their steps in any order, in each round anew. -/
inductive Reaches (workers : Nat) : Progress → Except Breach Progress → Prop where
  | done {p : Progress} (hnone : p.pendingClasses = []) : Reaches workers p (.ok p)
  | broken {p : Progress} {order : List Nat} {breach : Breach} (hpending : p.pendingClasses ≠ [])
      (hschedule : IsSchedule order workers (attempt p.catalog) p.pendingClasses)
      (hbreach : runPoolIn order workers (attempt p.catalog) p.pendingClasses = .error breach) :
      Reaches workers p (.error breach)
  | round {p : Progress} {order : List Nat}
      {outcomes : List (Host.HostClass × Except Refusal Scala.GeneratedFile)}
      {outcome : Except Breach Progress} (hpending : p.pendingClasses ≠ [])
      (hschedule : IsSchedule order workers (attempt p.catalog) p.pendingClasses)
      (houtcomes : runPoolIn order workers (attempt p.catalog) p.pendingClasses = .ok outcomes)
      (hrest : Reaches workers (p.advance outcomes) outcome) : Reaches workers p outcome

variable {p : Progress} {workers workers' fuel : Nat} {outcome : Except Breach Progress}

theorem run_succ (hpending : p.pendingClasses ≠ []) :
    p.run workers (fuel + 1) =
      runAll (attempt p.catalog) p.pendingClasses >>= fun outcomes =>
        (p.advance outcomes).run workers fuel := by
  have hnonempty : p.pendingClasses.isEmpty = false := by simpa using hpending
  rw [run, hnonempty, step, runPool_eq_runAll, bind_assoc]
  rfl

theorem fuel_advance {outcomes : List (Host.HostClass × Except Refusal Scala.GeneratedFile)}
    (hfuel : p.live < fuel + 1)
    (houtcomes : runAll (attempt p.catalog) p.pendingClasses = .ok outcomes) :
    (p.advance outcomes).pendingClasses = [] ∨ (p.advance outcomes).live < fuel := by
  obtain ⟨hsafe, hround⟩ := advance_eq_round houtcomes
  rw [hround]
  apply (round_decreases hsafe).imp_right
  intro hlt
  omega

/-- A batch comes to what its rounds come to in turn, whatever the orders of the steps are. -/
theorem Reaches.run_eq (h : Reaches workers p outcome)
    (hfuel : p.pendingClasses = [] ∨ p.live < fuel) : p.run workers' fuel = outcome := by
  induction h generalizing fuel with
  | done hnone => exact run_of_pendingClasses_eq_nil hnone
  | broken hpending hschedule hbreach =>
    -- the order does not matter within a round, so that `run` takes the same one
    rw [runPoolIn_of_isSchedule hschedule] at hbreach
    have hlt := hfuel.resolve_left hpending
    obtain ⟨fuel, rfl⟩ := Nat.exists_eq_add_of_lt hlt
    rw [run_succ hpending, hbreach]
    rfl
  | round hpending hschedule houtcomes _ ih =>
    rw [runPoolIn_of_isSchedule hschedule] at houtcomes
    have hlt := hfuel.resolve_left hpending
    obtain ⟨rest, rfl⟩ := Nat.exists_eq_add_of_lt hlt
    rw [run_succ hpending, houtcomes]
    exact ih (fuel_advance (by omega) houtcomes)

theorem reaches_run (workers workers' : Nat) (hfuel : p.pendingClasses = [] ∨ p.live < fuel) :
    Reaches workers p (p.run workers' fuel) := by
  induction fuel generalizing p with
  | zero => exact .done (hfuel.resolve_right (Nat.not_lt_zero _))
  | succ fuel ih =>
    by_cases hpending : p.pendingClasses = []
    . rw [run_of_pendingClasses_eq_nil hpending]
      exact .done hpending
    . have hschedule := isSchedule_turns workers (attempt p.catalog) p.pendingClasses
      have hpool := runPoolIn_of_isSchedule hschedule
      rw [run_succ hpending]
      cases houtcomes : runAll (attempt p.catalog) p.pendingClasses with
      | error breach =>
        rw [houtcomes] at hpool
        exact .broken hpending hschedule hpool
      | ok outcomes =>
        rw [houtcomes] at hpool
        have hlt := hfuel.resolve_left hpending
        exact .round hpending hschedule hpool (ih (fuel_advance hlt houtcomes))

end Progress

theorem generate_iff (g : Generator) (workers : Nat) (outcome : Except Breach Result) :
    (∃ reached, Progress.Reaches workers g.start reached ∧
      reached.map (fun p => { generated := p.files, failures := p.failures }) = outcome) ↔
        g.generate = outcome := by
  have hgenerate : g.generate =
      (g.start.run (workerCount g.jobs g.processors) (g.classes.length + 1)).map
        fun p => { generated := p.files, failures := p.failures } := rfl
  have hfuel : g.start.pendingClasses = [] ∨ g.start.live < g.classes.length + 1 :=
    .inr (Generator.live_start_lt g)
  rw [hgenerate]
  constructor
  . rintro ⟨reached, hreached, rfl⟩
    rw [hreached.run_eq hfuel]
  . intro heq
    exact ⟨_, Progress.reaches_run workers _ hfuel, heq⟩

/-- Workers find together what a single one finds, whatever the order of their steps is: the results
of all items in their order, or the error of the first item that has one. They are done if each of
them gets its turn often enough. So a batch comes to the same result with any number of workers. -/
theorem schedule_independent {α β ε : Type} (work : α → Except ε β) (items : List α) :
    (∀ workers order, IsSchedule order workers work items →
      runPoolIn order workers work items = items.mapM work) ∧
    (∀ workers order, (∀ i < min workers items.length, 4 * items.length + 2 ≤ order.count i) →
      IsSchedule order workers work items) ∧
    (∀ results, items.mapM work = .ok results ↔
      List.Forall₂ (fun item result => work item = .ok result) items results) ∧
    (∀ error, items.mapM work = .error error ↔
      ∃ before item after, items = before ++ item :: after ∧
        (∀ earlier ∈ before, ∃ result, work earlier = .ok result) ∧ work item = .error error) ∧
    ∀ (g : Generator) (jobs processors workers : Nat) (outcome : Except Breach Result),
      ({ g with jobs, processors } : Generator).generate = g.generate ∧
      ((∃ reached, Progress.Reaches workers g.start reached ∧
        reached.map (fun p => { generated := p.files, failures := p.failures }) = outcome) ↔
          g.generate = outcome) := by
  refine ⟨fun _ _ => runPoolIn_of_isSchedule, fun _ _ => isSchedule_of_count,
    fun _ => mapM_eq_ok_iff, fun _ => mapM_eq_error_iff, ?_⟩
  intro g jobs processors workers outcome
  refine ⟨?_, generate_iff g workers outcome⟩
  rw [← generate_iff _ workers]
  exact (generate_iff g workers _).mpr rfl

def halve (n : Nat) : Except Nat Nat :=
  if n % 2 = 0 then .ok (n / 2) else .error n

/-- The second worker finds an item that fails before the first one comes to an earlier one. -/
theorem schedule_independent_halve :
    ∃ order, IsSchedule order 2 halve [4, 5, 7, 6] ∧
      ((Pool.start 2).run halve [4, 5, 7, 6] (order.take 8)).workers.map Worker.results =
        [[(0, .ok 2)], [(2, .error 7)]] ∧
      runPoolIn order 2 halve [4, 5, 7, 6] = .error 5 := by
  have hschedule : IsSchedule [0, 0, 0, 0, 0, 1, 1, 1, 1, 1, 0, 0, 0] 2 halve [4, 5, 7, 6] := by
    unfold IsSchedule
    decide
  refine ⟨_, hschedule, by decide, ?_⟩
  rw [(schedule_independent halve [4, 5, 7, 6]).1 2 _ hschedule]
  rfl

end Facade.Batch
