import Facade.Batch.Stage

/-!
This module contains pipelines: the stages that a batch goes through, one after another, and the
observers that are called around each of them.
-/

namespace Facade.Batch

/-- What is called before and after each stage, with its name and the state of the batch. -/
structure Observer (m : Type → Type) [Monad m] where
  name : String
  before : String → State → ExceptT Trouble m State := fun _ state => return state
  after : String → State → ExceptT Trouble m State := fun _ state => return state

/-- The stages of a batch, and its observers. -/
structure Pipeline (m : Type → Type) [Monad m] where
  lints : List Lint := Lint.standard
  /-- The stages behind those that every batch goes through. -/
  added : List Stage := []
  observers : List (Observer m) := []

namespace Pipeline

variable {m : Type → Type} [Monad m]

def stages (p : Pipeline m) : List Stage :=
  [.validate p.lints, .extract, .register] ++ p.added

def callBefore (stage : String) (state : State) (o : Observer m) : ExceptT Trouble m State :=
  (o.before stage state).adapt (.during s!"plugin `{o.name}` failed before `{stage}`")

def callAfter (stage : String) (state : State) (o : Observer m) : ExceptT Trouble m State :=
  (o.after stage state).adapt (.during s!"plugin `{o.name}` failed after `{stage}`")

def runStage (p : Pipeline m) (state : State) (stage : Stage) : ExceptT Trouble m State := do
  let state ← p.observers.foldlM (callBefore stage.name) state
  let failed := Trouble.during s!"{stage.name} phase failed"
  let state ← liftExcept ((stage.run state).mapError failed)
  p.observers.foldlM (callAfter stage.name) state

def run (p : Pipeline m) (settings : Settings) (records : List Record) :
    ExceptT Trouble m State :=
  p.stages.foldlM p.runStage { settings, records }

end Pipeline

end Facade.Batch
