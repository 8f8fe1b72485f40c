/-!
This module contains the distribution of work to several workers: what they find together, and how
they go about it in small steps that may come in any order.
-/

namespace Facade.Batch

def workerCount (jobs processors : Nat) : Nat :=
  if jobs = 0 then processors else jobs

/--
The results for all items in their order, or the error of the first item that has one. This is what
workers find together, whichever of them takes which item.
-/
def runAll (work : α → Except ε β) (items : List α) : Except ε (List β) :=
  items.mapM work

/-- What a worker is about to do. -/
inductive Task where
  | look
  | take
  | work (index : Nat)
  | alarm
  | nothing
  deriving DecidableEq, Repr

/-- A worker, with the results of the items that it has worked on. -/
structure Worker (ε β : Type) where
  task : Task := .look
  results : List (Nat × Except ε β) := []

/-- Workers that share the items. -/
structure Pool (ε β : Type) where
  next : Nat := 0
  failed : Bool := false
  workers : List (Worker ε β)

namespace Pool

variable {α ε β : Type}

def start (workers : Nat) : Pool ε β :=
  { workers := List.replicate workers {} }

def act (work : α → Except ε β) (items : List α) (pool : Pool ε β) (worker : Worker ε β) :
    Pool ε β × Worker ε β :=
  match worker.task with
  | .look => (pool, { worker with task := if pool.failed then .nothing else .take })
  | .take =>
    -- the index goes on even if no item is left
    let task := if pool.next < items.length then .work pool.next else .nothing
    ({ pool with next := pool.next + 1 }, { worker with task })
  | .work index =>
    match items[index]? with
    | none => (pool, { worker with task := .look })
    | some item =>
      let result := work item
      let task := if result.isOk then .look else .alarm
      (pool, { worker with task, results := worker.results ++ [(index, result)] })
  | .alarm => ({ pool with failed := true }, { worker with task := .look })
  | .nothing => (pool, worker)

def step (work : α → Except ε β) (items : List α) (pool : Pool ε β) (index : Nat) : Pool ε β :=
  match pool.workers[index]? with
  | none => pool
  | some worker =>
    let (pool, worker) := act work items pool worker
    { pool with workers := pool.workers.set index worker }

def run (work : α → Except ε β) (items : List α) (order : List Nat) (pool : Pool ε β) : Pool ε β :=
  order.foldl (step work items) pool

def isDone (pool : Pool ε β) : Bool :=
  pool.workers.all fun worker => worker.task = .nothing

def collect (pool : Pool ε β) : Except ε (List β) :=
  let results := pool.workers.flatMap Worker.results
  -- no two results have one index, so that it does not show who has found them
  (results.mergeSort fun a b => a.1 ≤ b.1).mapM Prod.snd

/-- An order in which all workers take turns often enough to be done at its end. -/
def turns (workers : Nat) (items : List α) : List Nat :=
  (List.replicate (4 * items.length + 4) (List.range workers)).flatten

end Pool

/--
What workers find together whose steps come in a given order. There are at most as many as items, and
a single one does the work on its own.
-/
def runPoolIn (order : List Nat) (workers : Nat) (work : α → Except ε β) (items : List α) :
    Except ε (List β) :=
  let workers := min workers items.length
  if workers ≤ 1 then runAll work items
  else ((Pool.start workers).run work items order).collect

def runPool (workers : Nat) (work : α → Except ε β) (items : List α) : Except ε (List β) :=
  runPoolIn (Pool.turns (min workers items.length) items) workers work items

end Facade.Batch
