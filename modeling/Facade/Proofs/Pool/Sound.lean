import Facade.Batch.Workers
import Facade.Proofs.Outcome
import Mathlib.Data.List.Perm.Basic

/-!
This module contains the proofs about workers that share items. Whatever the order of their steps,
the items that they take are the first ones, every item that is taken is worked on, and what they
find together is what a single pass over the items finds.
-/

namespace Facade.Batch

variable {α ε β : Type} {work : α → Except ε β} {items : List α}

namespace Worker

def held (worker : Worker ε β) : List Nat :=
  match worker.task with
  | .work index => [index]
  | _ => []

def taken (worker : Worker ε β) : List Nat :=
  worker.results.map Prod.fst ++ worker.held

def HasFailure (worker : Worker ε β) : Prop :=
  ∃ index error, (index, .error error) ∈ worker.results

/-- What holds of a worker when `next` items have been asked for. -/
structure Sound (work : α → Except ε β) (items : List α) (next : Nat) (failed : Bool)
    (worker : Worker ε β) : Prop where
  results : ∀ r ∈ worker.results, items[r.1]?.map work = some r.2
  working : ∀ index, worker.task = .work index → index < items.length
  alarmed : worker.task = .alarm → worker.HasFailure
  finished : worker.task = .nothing → failed = true ∨ items.length ≤ next

theorem Sound.mono {next next' : Nat} {failed failed' : Bool} {worker : Worker ε β}
    (h : worker.Sound work items next failed) (hnext : next ≤ next')
    (hfailed : failed = true → failed' = true) : worker.Sound work items next' failed' where
  results := h.results
  working := h.working
  alarmed := h.alarmed
  finished := by
    intro htask
    cases h.finished htask with
    | inl hf => exact .inl (hfailed hf)
    | inr hn => exact .inr (by omega)

end Worker

namespace Pool

/-- What holds of a pool whenever its workers have made some steps. -/
structure Sound (work : α → Except ε β) (items : List α) (pool : Pool ε β) : Prop where
  taken : (pool.workers.flatMap Worker.taken).Perm (List.range (min pool.next items.length))
  workers : ∀ worker ∈ pool.workers, worker.Sound work items pool.next pool.failed
  failed : pool.failed = true → ∃ worker ∈ pool.workers, worker.HasFailure

/-- What a worker's step does to the worker and to what all share. -/
structure Moved (work : α → Except ε β) (items : List α) (pool pool' : Pool ε β)
    (worker worker' : Worker ε β) : Prop where
  next : pool.next ≤ pool'.next
  failed : pool.failed = true → pool'.failed = true
  sound : worker'.Sound work items pool'.next pool'.failed
  failure : worker.HasFailure → worker'.HasFailure
  alarm : pool'.failed = true → pool.failed = true ∨ worker'.HasFailure
  taken : (worker'.taken ++ List.range (min pool.next items.length)).Perm
    (worker.taken ++ List.range (min pool'.next items.length))

theorem moved_of_look {pool : Pool ε β} {worker : Worker ε β} (htask : worker.task = .look)
    (h : worker.Sound work items pool.next pool.failed) :
    Moved work items pool (act work items pool worker).1 worker (act work items pool worker).2 := by
  cases hfailed : pool.failed with
  | true =>
    have hact : act work items pool worker = (pool, { worker with task := .nothing }) := by
      simp [act, htask, hfailed]
    rw [hact]
    refine ⟨Nat.le_refl _, id, ?_, id, .inl, ?_⟩
    . exact ⟨h.results, by simp, by simp, fun _ => .inl hfailed⟩
    . simp [Worker.taken, Worker.held, htask]
  | false =>
    have hact : act work items pool worker = (pool, { worker with task := .take }) := by
      simp [act, htask, hfailed]
    rw [hact]
    refine ⟨Nat.le_refl _, id, ?_, id, .inl, ?_⟩
    . exact ⟨h.results, by simp, by simp, by simp⟩
    . simp [Worker.taken, Worker.held, htask]

theorem moved_of_take {pool : Pool ε β} {worker : Worker ε β} (htask : worker.task = .take)
    (h : worker.Sound work items pool.next pool.failed) :
    Moved work items pool (act work items pool worker).1 worker (act work items pool worker).2 := by
  by_cases hnext : pool.next < items.length
  . have hact : act work items pool worker =
        ({ pool with next := pool.next + 1 }, { worker with task := .work pool.next }) := by
      simp [act, htask, hnext]
    rw [hact]
    refine ⟨Nat.le_succ _, id, ?_, id, .inl, ?_⟩
    . refine ⟨h.results, ?_, by simp, by simp⟩
      intro index hwork
      cases hwork
      exact hnext
    . rw [Nat.min_eq_left (by omega), Nat.min_eq_left (by dsimp only; omega), List.range_succ]
      simp only [Worker.taken, Worker.held, htask, List.append_nil, List.append_assoc]
      exact List.perm_append_comm.append_left _
  . have hact : act work items pool worker =
        ({ pool with next := pool.next + 1 }, { worker with task := .nothing }) := by
      simp [act, htask, hnext]
    rw [hact]
    refine ⟨Nat.le_succ _, id, ?_, id, .inl, ?_⟩
    . exact ⟨h.results, by simp, by simp, fun _ => .inr (by dsimp only; omega)⟩
    . rw [Nat.min_eq_right (by omega), Nat.min_eq_right (by dsimp only; omega)]
      simp [Worker.taken, Worker.held, htask]

theorem moved_of_work {pool : Pool ε β} {worker : Worker ε β} {index : Nat}
    (htask : worker.task = .work index) (h : worker.Sound work items pool.next pool.failed) :
    Moved work items pool (act work items pool worker).1 worker (act work items pool worker).2 := by
  have hindex := h.working index htask
  have hitem : items[index]? = some items[index] := List.getElem?_eq_getElem hindex
  have hresults : ∀ r ∈ worker.results ++ [(index, work items[index])],
      items[r.1]?.map work = some r.2 := by
    intro r hr
    rw [List.mem_append, List.mem_singleton] at hr
    cases hr with
    | inl hr => exact h.results r hr
    | inr hr => rw [hr, hitem, Option.map_some]
  have hfailure : worker.HasFailure → ∃ index' error,
      (index', .error error) ∈ worker.results ++ [(index, work items[index])] := by
    rintro ⟨index', error, hmem⟩
    exact ⟨index', error, List.mem_append_left _ hmem⟩
  cases hwork : work items[index] with
  | ok result =>
    have hact : act work items pool worker =
        (pool, { task := .look, results := worker.results ++ [(index, .ok result)] }) := by
      simp [act, htask, hitem, hwork, Except.isOk, Except.toBool]
    rw [hact]
    rw [hwork] at hresults hfailure
    refine ⟨Nat.le_refl _, id, ⟨hresults, by simp, by simp, by simp⟩, hfailure, .inl, ?_⟩
    simp [Worker.taken, Worker.held, htask]
  | error error =>
    have hact : act work items pool worker =
        (pool, { task := .alarm, results := worker.results ++ [(index, .error error)] }) := by
      simp [act, htask, hitem, hwork, Except.isOk, Except.toBool]
    rw [hact]
    rw [hwork] at hresults hfailure
    refine ⟨Nat.le_refl _, id, ⟨hresults, by simp, ?_, by simp⟩, hfailure, .inl, ?_⟩
    . exact fun _ => ⟨index, error, by simp⟩
    . simp [Worker.taken, Worker.held, htask]

theorem moved_of_alarm {pool : Pool ε β} {worker : Worker ε β} (htask : worker.task = .alarm)
    (h : worker.Sound work items pool.next pool.failed) :
    Moved work items pool (act work items pool worker).1 worker (act work items pool worker).2 := by
  have hact : act work items pool worker =
      ({ pool with failed := true }, { worker with task := .look }) := by
    simp [act, htask]
  rw [hact]
  refine ⟨Nat.le_refl _, fun _ => rfl, ?_, id, ?_, ?_⟩
  . exact ⟨h.results, by simp, by simp, by simp⟩
  . exact fun _ => .inr (h.alarmed htask)
  . simp [Worker.taken, Worker.held, htask]

theorem act_of_nothing {pool : Pool ε β} {worker : Worker ε β} (htask : worker.task = .nothing) :
    act work items pool worker = (pool, worker) := by
  simp [act, htask]

theorem act_moved {pool : Pool ε β} {worker : Worker ε β}
    (h : worker.Sound work items pool.next pool.failed) :
    Moved work items pool (act work items pool worker).1 worker (act work items pool worker).2 := by
  cases htask : worker.task with
  | look => exact moved_of_look htask h
  | take => exact moved_of_take htask h
  | work index => exact moved_of_work htask h
  | alarm => exact moved_of_alarm htask h
  | nothing =>
    rw [act_of_nothing htask]
    exact ⟨Nat.le_refl _, id, h, id, .inl, List.Perm.refl _⟩

theorem act_workers (pool : Pool ε β) (worker : Worker ε β) :
    (act work items pool worker).1.workers = pool.workers := by
  unfold act
  split
  . rfl
  . rfl
  . split <;> rfl
  . rfl
  . rfl

/-- A step changes at most the worker whose turn it is, and what all share. -/
theorem step_cases (work : α → Except ε β) (items : List α) (pool : Pool ε β) (index : Nat) :
    pool.workers[index]? = none ∧ pool.step work items index = pool ∨
      ∃ before worker after, pool.workers = before ++ worker :: after ∧ before.length = index ∧
        pool.step work items index =
          { (act work items pool worker).1 with
            workers := before ++ (act work items pool worker).2 :: after } := by
  cases hworker : pool.workers[index]? with
  | none => exact .inl ⟨rfl, by simp [step, hworker]⟩
  | some worker =>
    right
    obtain ⟨hindex, hget⟩ := List.getElem?_eq_some_iff.mp hworker
    obtain ⟨before, after, heq, hlength, hset⟩ :=
      @List.exists_of_set _ index (act work items pool worker).2 _ hindex
    refine ⟨before, worker, after, ?_, hlength, ?_⟩
    . rw [hget] at heq
      exact heq
    . simp only [step, hworker, act_workers, hset]

theorem Sound.step {pool : Pool ε β} (h : pool.Sound work items) (index : Nat) :
    (pool.step work items index).Sound work items := by
  obtain ⟨-, hstep⟩ | ⟨before, worker, after, hworkers, -, hstep⟩ :=
    step_cases work items pool index
  . rw [hstep]
    exact h
  . have hmoved := act_moved (h.workers worker (by simp [hworkers]))
    generalize act work items pool worker = moved at hstep hmoved
    rw [hstep]
    constructor <;> dsimp only
    -- the other workers hold what they held before
    . rw [List.perm_iff_count]
      intro index
      have htaken := h.taken.count_eq index
      have hact := hmoved.taken.count_eq index
      rw [hworkers] at htaken
      simp only [List.flatMap_append, List.flatMap_cons, List.count_append] at htaken hact ⊢
      omega
    . intro other hother
      rw [List.mem_append, List.mem_cons] at hother
      obtain hother | rfl | hother := hother
      . exact (h.workers other (by simp [hworkers, hother])).mono hmoved.next hmoved.failed
      . exact hmoved.sound
      . exact (h.workers other (by simp [hworkers, hother])).mono hmoved.next hmoved.failed
    . intro hfailed
      cases hmoved.alarm hfailed with
      | inr hfailure => exact ⟨moved.2, by simp, hfailure⟩
      | inl hfailed =>
        obtain ⟨other, hother, hfailure⟩ := h.failed hfailed
        rw [hworkers, List.mem_append, List.mem_cons] at hother
        obtain hother | rfl | hother := hother
        . exact ⟨other, by simp [hother], hfailure⟩
        . exact ⟨moved.2, by simp, hmoved.failure hfailure⟩
        . exact ⟨other, by simp [hother], hfailure⟩

theorem sound_start (workers : Nat) : (start workers : Pool ε β).Sound work items where
  taken := by
    have hfree : ∀ workers : Nat,
        (List.replicate workers ({} : Worker ε β)).flatMap Worker.taken = [] := by
      intro workers
      rw [List.flatMap_eq_nil_iff]
      intro worker hworker
      rw [List.eq_of_mem_replicate hworker]
      rfl
    simp [start, hfree]
  workers := by
    intro worker hworker
    rw [List.eq_of_mem_replicate hworker]
    exact ⟨by simp, by simp, by simp, by simp⟩
  failed := by simp [start]

theorem Sound.run {pool : Pool ε β} (h : pool.Sound work items) (order : List Nat) :
    (pool.run work items order).Sound work items := by
  induction order generalizing pool with
  | nil => exact h
  | cons index order ih => exact ih (h.step index)

theorem length_workers_step (work : α → Except ε β) (items : List α) (pool : Pool ε β)
    (index : Nat) : (pool.step work items index).workers.length = pool.workers.length := by
  obtain ⟨-, hstep⟩ | ⟨before, worker, after, hworkers, -, hstep⟩ :=
    step_cases work items pool index
  . rw [hstep]
  . simp [hstep, hworkers]

theorem length_workers_run (work : α → Except ε β) (items : List α) (pool : Pool ε β)
    (order : List Nat) : (pool.run work items order).workers.length = pool.workers.length := by
  induction order generalizing pool with
  | nil => rfl
  | cons index order ih =>
    have hrun := ih (pool.step work items index)
    rw [length_workers_step] at hrun
    exact hrun

def sorted (pool : Pool ε β) : List (Nat × Except ε β) :=
  (pool.workers.flatMap Worker.results).mergeSort fun a b => a.1 ≤ b.1

theorem taken_eq_of_isDone {pool : Pool ε β} (h : pool.isDone = true) :
    pool.workers.flatMap Worker.taken =
      (pool.workers.flatMap Worker.results).map Prod.fst := by
  rw [List.map_flatMap]
  apply List.flatMap_congr
  intro worker hworker
  have htask : worker.task = .nothing := by
    simpa using List.all_eq_true.mp h worker hworker
  simp [Worker.taken, Worker.held, htask]

theorem Sound.sorted_indices {pool : Pool ε β} (h : pool.Sound work items)
    (hdone : pool.isDone = true) :
    pool.sorted.map Prod.fst = List.range (min pool.next items.length) := by
  have hperm : (pool.sorted.map Prod.fst).Perm (List.range (min pool.next items.length)) := by
    have htaken := h.taken
    rw [taken_eq_of_isDone hdone] at htaken
    exact ((List.mergeSort_perm _ _).map Prod.fst).trans htaken
  have hsorted : (pool.sorted.map Prod.fst).Pairwise (· ≤ ·) := by
    rw [List.pairwise_map]
    apply List.Pairwise.imp _ (List.pairwise_mergeSort _ _ _)
    . simp
    . simp
      omega
    . simp
      omega
  exact hperm.eq_of_pairwise (fun _ _ _ _ => Nat.le_antisymm) hsorted List.pairwise_le_range

theorem Sound.result_of_mem_sorted {pool : Pool ε β} (h : pool.Sound work items)
    {r : Nat × Except ε β} (hr : r ∈ pool.sorted) : items[r.1]?.map work = some r.2 := by
  rw [sorted, List.mem_mergeSort, List.mem_flatMap] at hr
  obtain ⟨worker, hworker, hr⟩ := hr
  exact (h.workers worker hworker).results r hr

/-- Workers that are done have worked on the first items. -/
theorem Sound.sorted_results {pool : Pool ε β} (h : pool.Sound work items)
    (hdone : pool.isDone = true) : pool.sorted.map Prod.snd = (items.take pool.next).map work := by
  apply List.map_injective_iff.mpr (fun _ _ => Option.some.inj)
  calc (pool.sorted.map Prod.snd).map some
    _ = pool.sorted.map (fun r => items[r.1]?.map work) := by
      rw [List.map_map]
      apply List.map_congr_left
      intro r hr
      exact (h.result_of_mem_sorted hr).symm
    _ = (pool.sorted.map Prod.fst).map (fun index => items[index]?.map work) := by
      rw [List.map_map]
      rfl
    _ = ((items.take pool.next).map work).map some := by
      rw [h.sorted_indices hdone]
      apply List.ext_getElem
      . simp
      . intro index hindex _
        simp only [List.length_map, List.length_range] at hindex
        have hlt : index < items.length := by omega
        simp [hlt]

theorem collect_eq (pool : Pool ε β) : pool.collect = (pool.sorted.map Prod.snd).mapM id := by
  rw [List.mapM_map]
  rfl

/-- Workers that are done have asked for all items, or one that they have worked on has failed. -/
theorem Sound.exhausted_or_failed {pool : Pool ε β} (h : pool.Sound work items)
    (hdone : pool.isDone = true) (hworkers : pool.workers ≠ []) :
    items.length ≤ pool.next ∨
      ∃ item ∈ items.take pool.next, ∃ error, work item = .error error := by
  obtain ⟨worker, hworker⟩ := List.exists_mem_of_ne_nil _ hworkers
  have htask : worker.task = .nothing := by
    simpa using List.all_eq_true.mp hdone worker hworker
  -- a worker is done when it has seen a failure or has found no more items
  obtain hfailed | hnext := (h.workers worker hworker).finished htask
  . right
    obtain ⟨other, hother, index, error, hmem⟩ := h.failed hfailed
    have hsorted : (index, .error error) ∈ pool.sorted := by
      rw [sorted, List.mem_mergeSort, List.mem_flatMap]
      exact ⟨other, hother, hmem⟩
    have hresult : .error error ∈ (items.take pool.next).map work := by
      rw [← h.sorted_results hdone]
      exact List.mem_map_of_mem hsorted
    obtain ⟨item, hitem, hwork⟩ := List.mem_map.mp hresult
    exact ⟨item, hitem, error, hwork⟩
  . exact .inl hnext

theorem Sound.collect_eq_runAll {pool : Pool ε β} (h : pool.Sound work items)
    (hdone : pool.isDone = true) (hworkers : pool.workers ≠ []) :
    pool.collect = runAll work items := by
  have hcollect : pool.collect = (items.take pool.next).mapM work := by
    rw [collect_eq, h.sorted_results hdone, List.mapM_map]
    rfl
  rw [hcollect, runAll]
  obtain hnext | hfailure := h.exhausted_or_failed hdone hworkers
  . rw [List.take_of_length_le hnext]
  -- nobody has worked on the items behind those that were asked for, but one before them fails
  . have happend := Outcome.mapM_append_of_failure (items.drop pool.next) hfailure
    rw [List.take_append_drop] at happend
    exact happend.symm

end Pool

end Facade.Batch
