import Facade.Proofs.Pool.Sound
import Mathlib.Data.List.Nodup

/-!
This module contains the proofs that workers who share items come to an end, in every order of their
steps that gives each of them its turn often enough, and that what they find is the same for all
orders.
-/

namespace Facade.Batch

variable {α ε β : Type} {work : α → Except ε β} {items : List α}

namespace Pool

theorem getElem?_workers_step (work : α → Except ε β) (items : List α) (pool : Pool ε β)
    (index i : Nat) :
    (pool.step work items index).workers[i]? =
      if index = i then pool.workers[i]?.map fun worker => (act work items pool worker).2
      else pool.workers[i]? := by
  unfold step
  split
  . next hworker =>
    split
    . next hi => simp [← hi, hworker]
    . rfl
  . next worker hworker =>
    rw [List.getElem?_set]
    split
    . next hi =>
      subst hi
      obtain ⟨hlt, -⟩ := List.getElem?_eq_some_iff.mp hworker
      simp only [act_workers, hlt, ↓reduceIte, hworker, Option.map_some]
    . rw [act_workers]

theorem next_le_act (pool : Pool ε β) (worker : Worker ε β) :
    pool.next ≤ (act work items pool worker).1.next := by
  unfold act
  split
  . exact Nat.le_refl _
  . exact Nat.le_succ _
  . split <;> exact Nat.le_refl _
  . exact Nat.le_refl _
  . exact Nat.le_refl _

theorem next_le_step (pool : Pool ε β) (index : Nat) :
    pool.next ≤ (pool.step work items index).next := by
  unfold step
  split
  . exact Nat.le_refl _
  . exact next_le_act pool _

def stepsInRound : Task → Nat
  | .look => 2
  | .take => 1
  | .work _ => 4
  | .alarm => 3
  | .nothing => 0

/-- A bound for the steps that a worker can make before it is done. -/
def stepsLeft (items : List α) (next : Nat) (worker : Worker ε β) : Nat :=
  if worker.task = .nothing then 0
  else 4 * (items.length - next) + stepsInRound worker.task

theorem stepsLeft_eq_zero {next : Nat} {worker : Worker ε β}
    (h : stepsLeft items next worker = 0) : worker.task = .nothing := by
  unfold stepsLeft at h
  cases htask : worker.task <;> simp [htask, stepsInRound] at h ⊢

theorem stepsLeft_mono {next next' : Nat} (worker : Worker ε β) (h : next ≤ next') :
    stepsLeft items next' worker ≤ stepsLeft items next worker := by
  unfold stepsLeft
  split
  . exact Nat.le_refl _
  . omega

theorem stepsLeft_act (pool : Pool ε β) (worker : Worker ε β) :
    stepsLeft items (act work items pool worker).1.next (act work items pool worker).2 ≤
      stepsLeft items pool.next worker - 1 := by
  cases htask : worker.task with
  | look =>
    simp only [act, htask]
    cases pool.failed <;> simp [stepsLeft, stepsInRound, htask]
  | take =>
    simp only [act, htask]
    -- an item that is taken is no longer ahead, which pays for all steps of its round
    by_cases hnext : pool.next < items.length
    . simp [stepsLeft, stepsInRound, htask, hnext]
      omega
    . simp [stepsLeft, hnext]
  | work index =>
    cases hitem : items[index]? with
    | none => simp [act, stepsLeft, stepsInRound, htask, hitem]
    | some item =>
      simp only [act, htask, hitem]
      cases (work item).isOk <;> simp [stepsLeft, stepsInRound, htask]
  | alarm => simp [act, stepsLeft, stepsInRound, htask]
  | nothing => simp [act, stepsLeft, htask]

def stepsLeftAt (items : List α) (pool : Pool ε β) (i : Nat) : Nat :=
  pool.workers[i]?.elim 0 (stepsLeft items pool.next)

theorem stepsLeftAt_step (work : α → Except ε β) (items : List α) (pool : Pool ε β)
    (index i : Nat) :
    stepsLeftAt items (pool.step work items index) i ≤
      stepsLeftAt items pool i - if index = i then 1 else 0 := by
  unfold stepsLeftAt
  rw [getElem?_workers_step]
  cases hworker : pool.workers[i]? with
  | none => simp
  | some worker =>
    split
    . next hi =>
      have hstep : (pool.step work items index).next = (act work items pool worker).1.next := by
        simp only [step, hi, hworker]
      rw [hstep]
      exact stepsLeft_act pool worker
    . exact stepsLeft_mono worker (next_le_step pool index)

theorem stepsLeftAt_run (work : α → Except ε β) (items : List α) (pool : Pool ε β)
    (order : List Nat) (i : Nat) :
    stepsLeftAt items (pool.run work items order) i ≤ stepsLeftAt items pool i - order.count i := by
  induction order generalizing pool with
  | nil => exact Nat.le_refl _
  | cons index order ih =>
    have hstep := stepsLeftAt_step work items pool index i
    have hrun := ih (pool.step work items index)
    rw [List.count_cons]
    simp only [beq_iff_eq]
    exact Nat.le_trans hrun (by omega)

theorem stepsLeftAt_start (items : List α) (workers i : Nat) :
    stepsLeftAt items (start workers : Pool ε β) i ≤ 4 * items.length + 2 := by
  unfold stepsLeftAt start
  cases hworker : (List.replicate workers ({} : Worker ε β))[i]? with
  | none => simp
  | some worker =>
    have hfree : worker = {} := List.eq_of_mem_replicate (List.mem_of_getElem? hworker)
    simp [hfree, stepsLeft, stepsInRound]

/-- Workers are done if each of them gets its turn often enough, in whatever order. -/
theorem isDone_run_start {workers : Nat} {order : List Nat}
    (h : ∀ i < workers, 4 * items.length + 2 ≤ order.count i) :
    ((start workers).run work items order).isDone = true := by
  rw [isDone, List.all_eq_true]
  intro worker hworker
  obtain ⟨i, hi, hget⟩ := List.getElem_of_mem hworker
  have hlt : i < workers := by
    rw [length_workers_run, start, List.length_replicate] at hi
    exact hi
  have hleft := stepsLeftAt_run work items (start workers) order i
  have hstart : stepsLeftAt items (start workers : Pool ε β) i ≤ 4 * items.length + 2 :=
    stepsLeftAt_start items workers i
  have hcount := h i hlt
  have hzero : stepsLeftAt items ((start workers).run work items order) i = 0 := by omega
  rw [stepsLeftAt, List.getElem?_eq_getElem hi, hget] at hzero
  simpa using stepsLeft_eq_zero hzero

theorem count_turns (items : List α) {workers i : Nat} (h : i < workers) :
    (turns workers items).count i = 4 * items.length + 4 := by
  have hround : (List.range workers).count i = 1 :=
    List.count_eq_one_of_mem List.nodup_range (List.mem_range.mpr h)
  simp [turns, List.count_flatten, hround]

end Pool

/-- Whether the steps of some workers come in an order at whose end all of them are done. -/
def IsSchedule (order : List Nat) (workers : Nat) (work : α → Except ε β) (items : List α) : Prop :=
  ((Pool.start (min workers items.length)).run work items order).isDone = true

theorem isSchedule_of_count {workers : Nat} {order : List Nat}
    (h : ∀ i < min workers items.length, 4 * items.length + 2 ≤ order.count i) :
    IsSchedule order workers work items :=
  Pool.isDone_run_start h

theorem isSchedule_turns (workers : Nat) (work : α → Except ε β) (items : List α) :
    IsSchedule (Pool.turns (min workers items.length) items) workers work items := by
  apply isSchedule_of_count
  intro i hi
  rw [Pool.count_turns items hi]
  omega

theorem runPoolIn_of_isSchedule {order : List Nat} {workers : Nat}
    (h : IsSchedule order workers work items) :
    runPoolIn order workers work items = runAll work items := by
  unfold runPoolIn
  dsimp only
  split
  . rfl
  . next hworkers =>
    apply ((Pool.sound_start _).run order).collect_eq_runAll h
    apply List.ne_nil_of_length_pos
    rw [Pool.length_workers_run, Pool.start, List.length_replicate]
    omega

theorem runPool_eq_runAll (workers : Nat) (work : α → Except ε β) (items : List α) :
    runPool workers work items = runAll work items :=
  runPoolIn_of_isSchedule (isSchedule_turns workers work items)

end Facade.Batch
