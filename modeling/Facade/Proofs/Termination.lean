import Facade.Proofs.Safety

/-!
This module contains the proof that every generation comes to an end, however its classes use each
other. The classes that have to be tried again may become more from one round to the next, but those
that have failed never become fewer, and there is a new one in every round behind which another one
comes.
-/

namespace Facade.Batch

open Host Outcome Scala

namespace Progress

/-- The rounds of a batch that goes on as long as a class is pending: what it is before each of them,
and what it is at the end. Nothing else bounds the rounds. -/
inductive Loop (workers : Nat) : Progress → List Progress → Progress → Prop where
  | done {p : Progress} (hnone : p.pendingClasses = []) : Loop workers p [] p
  | round {p next last : Progress} {rounds : List Progress} (hpending : p.pendingClasses ≠ [])
      (hstep : p.step workers = .ok next) (hrest : Loop workers next rounds last) :
      Loop workers p (p :: rounds) last

variable {g : Generator} {p last : Progress} {rounds : List Progress} {workers : Nat}

theorem mem_round_of_failed {c : HostClass} (h : (c, .failed) ∈ p.classes) :
    (c, .failed) ∈ p.round.classes :=
  List.mem_map.mpr ⟨_, h, rfl⟩

theorem exists_failed_of_dropped (h : p.dropped ≠ []) :
    ∃ c ∈ p.pendingClasses, (c, .failed) ∈ p.round.classes := by
  obtain ⟨name, hname⟩ := List.exists_mem_of_ne_nil _ h
  obtain ⟨⟨c, status⟩, hentry, failure, hfailure, -⟩ := mem_dropped.mp hname
  cases status with
  | generated file => cases hfailure
  | failed => cases hfailure
  | pending =>
    refine ⟨c, mem_pendingClasses.mpr hentry, List.mem_map.mpr ⟨_, hentry, ?_⟩⟩
    cases hfile : generateFile p.catalog c with
    | ok file =>
      rw [failure?_of_ok hfile] at hfailure
      cases hfailure
    | error stop =>
      rw [verdict_of_error hfile]
      rfl

theorem live_pos (h : p.pendingClasses ≠ []) : 0 < p.live := by
  obtain ⟨c, hc⟩ := List.exists_mem_of_ne_nil _ h
  have hlt : (p.classes.filter (·.2.isFailed)).length < p.classes.length :=
    List.length_filter_lt_length_iff_exists.mpr ⟨_, mem_pendingClasses.mp hc, by simp⟩
  rw [live, failedNames, List.length_map]
  omega

/-- A batch whose rounds keep an invariant, under which none of them breaks, comes to an end. -/
theorem exists_loop {P : Progress → Prop} (hsafe : ∀ p, P p → p.IsSafe)
    (hround : ∀ p, P p → P p.round) (hp : P p) :
    ∃ rounds last, ∀ workers, Loop workers p rounds last := by
  -- the classes that have not failed become fewer, those that are pending need not
  induction hlive : p.live using Nat.strong_induction_on generalizing p with
  | _ n ih =>
    by_cases hpending : p.pendingClasses = []
    . exact ⟨[], p, fun _ => .done hpending⟩
    . have hstep := fun workers => step_of_isSafe workers (hsafe p hp)
      obtain hnone | hlt := round_decreases (hsafe p hp)
      . exact ⟨[p], p.round, fun workers => .round hpending (hstep workers) (.done hnone)⟩
      . obtain ⟨rounds, last, hrest⟩ := ih p.round.live (hlive ▸ hlt) (hround p hp) rfl
        exact ⟨p :: rounds, last, fun workers => .round hpending (hstep workers) (hrest workers)⟩

namespace Loop

theorem run_eq (h : Loop workers p rounds last) {fuel : Nat} (hfuel : rounds.length ≤ fuel) :
    p.run workers fuel = .ok last := by
  induction h generalizing fuel with
  | done hnone => exact run_of_pendingClasses_eq_nil hnone
  | @round p _ _ _ hpending hstep _ ih =>
    cases fuel with
    | zero => cases hfuel
    | succ fuel =>
      have hnonempty : p.pendingClasses.isEmpty = false := by simpa using hpending
      rw [run, hnonempty, hstep]
      exact ih (Nat.le_of_succ_le_succ hfuel)

theorem forall_mem {P : Progress → Prop} (hround : ∀ p, P p → p.IsSafe → P p.round)
    (h : Loop workers p rounds last) (hp : P p) : ∀ q ∈ rounds ++ [last], P q := by
  induction h with
  | done _ => exact List.forall_mem_singleton.mpr hp
  | @round p _ _ _ _ hstep _ ih =>
    obtain ⟨hsafe, rfl⟩ := step_eq_ok hstep
    exact List.forall_mem_cons.mpr ⟨hp, ih (hround p hp hsafe)⟩

theorem length_le_live (h : Loop workers p rounds last) : rounds.length ≤ p.live := by
  induction h with
  | done _ => exact Nat.zero_le _
  | @round p _ _ _ hpending hstep hrest ih =>
    obtain ⟨hsafe, rfl⟩ := step_eq_ok hstep
    rw [List.length_cons]
    cases hrest with
    | done _ => exact live_pos hpending
    | round hagain _ _ =>
      have hlt := (round_decreases hsafe).resolve_left hagain
      omega

theorem isChain_fails (h : Loop workers p rounds last) :
    rounds.IsChain fun p q => ∃ c ∈ p.pendingClasses, (c, .failed) ∈ q.classes := by
  induction h with
  | done _ => exact .nil
  | round _ hstep hrest ih =>
    obtain ⟨-, rfl⟩ := step_eq_ok hstep
    cases hrest with
    | done _ => exact .singleton _
    | round hagain _ _ =>
      refine .cons_cons (exists_failed_of_dropped ?_) ih
      exact fun hnone => hagain (pendingClasses_round_of_dropped_eq_nil hnone)

theorem pairwise_failed (h : Loop workers p rounds last) :
    (rounds ++ [last]).Pairwise fun p q =>
      ∀ c, (c, Status.failed) ∈ p.classes → (c, .failed) ∈ q.classes := by
  induction h with
  | done _ => exact List.pairwise_singleton _ _
  | round _ hstep hrest ih =>
    obtain ⟨-, rfl⟩ := step_eq_ok hstep
    refine List.pairwise_cons.mpr ⟨?_, ih⟩
    intro q hq c hc
    have hkeeps : ∀ p : Progress, (c, .failed) ∈ p.classes → p.IsSafe →
        (c, .failed) ∈ p.round.classes := fun _ hmem _ => mem_round_of_failed hmem
    exact hrest.forall_mem hkeeps (mem_round_of_failed hc) q hq

end Loop

theorem Sound.not_pending_of_failed (hg : g.WellFormed) (h : p.Sound g) {c : HostClass}
    (hc : (c, .failed) ∈ p.classes) : c ∉ p.pendingClasses := by
  intro hpending
  cases h.eq_of_name hg hc (mem_pendingClasses.mp hpending) rfl

end Progress

/-- The generation of every batch comes to an end, whatever its settings and records are, however many
workers there are, and also if its classes use each other in circles: with no bound but that
something is pending, there are finitely many rounds. The fuel that a generation has does not decide
anything, as more fuel gives the same. In every round but the last a class fails that is tried in
it. A class that has failed remains so in all rounds behind that and at the end, and is not tried
again. So there are no more rounds than classes. -/
theorem generation_terminates (settings : Settings) (records : List Record) :
    ∃ state g, (({} : Pipeline Id).run settings records).run = .ok state ∧
      Generator.ofState state = .ok g ∧
      ∃ rounds last, (∀ workers, Progress.Loop workers g.start rounds last) ∧
        (∀ jobs processors, ({ g with jobs, processors } : Generator).generate =
          .ok { generated := last.files, failures := last.failures }) ∧
        (∀ workers fuel, rounds.length ≤ fuel → g.start.run workers fuel = .ok last) ∧
        rounds.length ≤ g.classes.length ∧
        (rounds.IsChain fun p q => ∃ c ∈ p.pendingClasses, (c, .failed) ∈ q.classes) ∧
        (rounds ++ [last]).Pairwise fun p q => ∀ c, (c, Status.failed) ∈ p.classes →
          (c, .failed) ∈ q.classes ∧ c ∉ q.pendingClasses := by
  obtain ⟨state, g, hrun, hg, hwell, hsafe⟩ := Generator.exists_safe settings records
  obtain ⟨rounds, last, hloop⟩ := Progress.exists_loop hsafe
    (fun p hp => hp.round hwell (hsafe p hp)) (Progress.sound_start g)
  have hsound := (hloop 1).forall_mem (fun p hp => hp.round hwell) (Progress.sound_start g)
  -- in each round a class fails that has not failed before
  have hlength : rounds.length ≤ g.classes.length :=
    ((hloop 1).length_le_live).trans (Nat.le_of_lt_succ (Generator.live_start_lt g))
  refine ⟨state, g, hrun, hg, rounds, last, hloop, ?_, ?_, hlength, (hloop 1).isChain_fails, ?_⟩
  . intro jobs processors
    have hlast := (hloop (workerCount jobs processors)).run_eq (hlength.trans (Nat.le_succ _))
    exact bind_eq_ok_iff.mpr ⟨last, hlast, rfl⟩
  . exact fun workers fuel => (hloop workers).run_eq
  . refine (hloop 1).pairwise_failed.imp_of_mem ?_
    intro p q _ hq hfailed c hc
    exact ⟨hfailed c hc, (hsound q hq).not_pending_of_failed hwell (hfailed c hc)⟩

end Facade.Batch
