import Facade.Batch.Pipeline

/-!
This module contains the proofs about what stops a pipeline: an error among the notices does so in
validation, which looks for errors, and nowhere else. Behind validation a run goes the same way
whatever notices there are, unless it is given a stage or an observer that looks at them.
-/

namespace Facade.Batch

/-- The state with some notices in front of its own. -/
def State.prepend (notices : List Notice) (state : State) : State :=
  { state with notices := notices ++ state.notices }

def State.lint (lints : List Lint) (state : State) : State :=
  let found := lints.flatMap fun lint => lint.check state.settings state.records
  { state with notices := state.notices ++ found }

section

variable {m : Type → Type} [Monad m] [LawfulMonad m]

theorem foldlM_map_comm {ε α β : Type} {f : β → α → ExceptT ε m β} {g : β → β} {items : List α}
    (hf : ∀ item ∈ items, ∀ b, f (g b) item = g <$> f b item) (b : β) :
    items.foldlM f (g b) = g <$> items.foldlM f b := by
  induction items generalizing b with
  | nil => simp
  | cons item items ih =>
    rw [List.foldlM_cons, List.foldlM_cons, hf item List.mem_cons_self, bind_map_left, map_bind]
    apply bind_congr
    exact ih fun item hitem => hf item (List.mem_cons_of_mem _ hitem)

theorem adapt_map {ε ε' α : Type} (f : ε → ε') (g : α → α) (x : ExceptT ε m α) :
    (g <$> x).adapt f = g <$> x.adapt f := by
  apply ExceptT.ext
  rw [ExceptT.run_map]
  change Except.mapError f <$> (g <$> x).run = Except.map g <$> Except.mapError f <$> x.run
  rw [ExceptT.run_map, Functor.map_map, Functor.map_map]
  congr 1
  funext result
  cases result <;> rfl

theorem liftExcept_map {ε α : Type} (g : α → α) (x : Except ε α) :
    (liftExcept (x.map g) : ExceptT ε m α) = g <$> liftExcept x := by
  cases x with
  | error e =>
    apply ExceptT.ext
    rw [ExceptT.run_map]
    exact (map_pure (Except.map g) (Except.error e : Except ε α)).symm
  | ok a => exact (map_pure g a).symm

/-- Whether a stage does the same whatever notices there are already, and keeps them. -/
def Stage.IgnoresNotices (stage : Stage) : Prop :=
  ∀ notices state, stage.run (state.prepend notices) = (stage.run state).map (.prepend notices)

/-- Whether an observer does the same whatever notices there are already, and keeps them. -/
structure Observer.IgnoresNotices (o : Observer m) : Prop where
  before : ∀ stage notices state,
    o.before stage (state.prepend notices) = State.prepend notices <$> o.before stage state
  after : ∀ stage notices state,
    o.after stage (state.prepend notices) = State.prepend notices <$> o.after stage state

namespace Stage

theorem ignoresNotices_extract : extract.IgnoresNotices :=
  fun _ _ => rfl

theorem ignoresNotices_register : register.IgnoresNotices := by
  intro notices state
  simp only [register, State.prepend]
  cases state.classes <;> rfl

/-- Validation fails for an error among the notices, no matter who has added it. -/
theorem run_validate (lints : List Lint) (state : State) :
    (validate lints).run state =
      if (state.lint lints).hasAny .error then
        .error (.errorsFound ((state.lint lints).noticesOf .error).length)
      else .ok (state.lint lints) := rfl

end Stage

namespace Pipeline

variable {p : Pipeline m}

theorem runStage_prepend (hobservers : ∀ o ∈ p.observers, o.IgnoresNotices) {stage : Stage}
    (hstage : stage.IgnoresNotices) (notices : List Notice) (state : State) :
    p.runStage (state.prepend notices) stage = State.prepend notices <$> p.runStage state stage := by
  have hbefore : ∀ state, p.observers.foldlM (callBefore stage.name) (state.prepend notices) =
      State.prepend notices <$> p.observers.foldlM (callBefore stage.name) state := by
    apply foldlM_map_comm
    intro o ho state
    rw [callBefore, (hobservers o ho).before, adapt_map, callBefore]
  have hafter : ∀ state, p.observers.foldlM (callAfter stage.name) (state.prepend notices) =
      State.prepend notices <$> p.observers.foldlM (callAfter stage.name) state := by
    apply foldlM_map_comm
    intro o ho state
    rw [callAfter, (hobservers o ho).after, adapt_map, callAfter]
  have hrun : ∀ (failed : Trouble → Trouble) (state : State),
      (stage.run (state.prepend notices)).mapError failed =
        ((stage.run state).mapError failed).map (.prepend notices) := by
    intro failed state
    rw [hstage]
    cases stage.run state <;> rfl
  simp only [runStage, hbefore, bind_map_left, hrun, liftExcept_map, hafter, map_bind]

/-- Behind validation, errors among the notices change nothing about the rest of a run. -/
theorem foldlM_prepend (hobservers : ∀ o ∈ p.observers, o.IgnoresNotices) {stages : List Stage}
    (hstages : ∀ stage ∈ stages, stage.IgnoresNotices) (notices : List Notice) (state : State) :
    stages.foldlM p.runStage (state.prepend notices) =
      State.prepend notices <$> stages.foldlM p.runStage state :=
  foldlM_map_comm (fun stage hstage =>
    runStage_prepend hobservers (hstages stage hstage) notices) state

/-- The stages behind validation. -/
def later (p : Pipeline m) : List Stage :=
  [.extract, .register] ++ p.added

/-- The first stage: it stops at once if there are errors among the notices then. -/
def validated (p : Pipeline m) (state : State) : ExceptT Trouble m State := do
  let state ← p.observers.foldlM (callBefore "validate") state
  let linted := state.lint p.lints
  if linted.hasAny .error then
    throw (.during "validate phase failed" (.errorsFound (linted.noticesOf .error).length))
  else p.observers.foldlM (callAfter "validate") linted

theorem runStage_validate (p : Pipeline m) (state : State) :
    p.runStage state (.validate p.lints) = p.validated state := by
  rw [runStage, validated]
  apply bind_congr
  intro state
  rw [Stage.run_validate]
  simp only [Stage.validate]
  cases (state.lint p.lints).hasAny .error with
  | true => exact pure_bind (m := m) (Except.error _) _
  | false => exact pure_bind (m := ExceptT Trouble m) (state.lint p.lints) _

omit [LawfulMonad m] in
theorem ignoresNotices_of_mem_later (hadded : ∀ stage ∈ p.added, stage.IgnoresNotices)
    {stage : Stage} (h : stage ∈ p.later) : stage.IgnoresNotices := by
  simp only [later, List.cons_append, List.nil_append, List.mem_cons] at h
  obtain rfl | rfl | h := h
  . exact Stage.ignoresNotices_extract
  . exact Stage.ignoresNotices_register
  . exact hadded stage h

end Pipeline

/-- Validation stops a run at once if there are errors among the notices then: no stage comes
behind it, and no observer is called after it. Behind validation, errors among the notices change
nothing about the rest of a run, up to its end or to whatever stops it, unless an observer or a
stage from outside looks at them. -/
theorem Pipeline.errors_stop_validation (p : Pipeline m) :
    (∀ settings records,
      p.run settings records = p.validated { settings, records } >>= p.later.foldlM p.runStage) ∧
    ((∀ o ∈ p.observers, o.IgnoresNotices) → (∀ stage ∈ p.added, stage.IgnoresNotices) →
      ∀ stages, stages <:+ p.later → ∀ notices state,
        stages.foldlM p.runStage (state.prepend notices) =
          State.prepend notices <$> stages.foldlM p.runStage state) := by
  constructor
  . intro settings records
    rw [← runStage_validate]
    rfl
  . intro hobservers hadded stages hstages
    apply foldlM_prepend hobservers
    intro stage hstage
    exact ignoresNotices_of_mem_later hadded (hstages.subset hstage)

end

def Stage.notify (notice : Notice) : Stage where
  name := notice.stage
  description := "Add a notice"
  run state := .ok (state.addNotice notice)

theorem Stage.ignoresNotices_notify (notice : Notice) : (notify notice).IgnoresNotices := by
  intro notices state
  simp [notify, State.addNotice, State.prepend, Except.map]

/-- Whether a run fails if there are errors among the notices when a stage has finished. -/
def Pipeline.StopsAtErrors (p : Pipeline Id) (settings : Settings) (records : List Record) : Prop :=
  ∀ before stage after state, p.stages = before ++ stage :: after →
    ((before ++ [stage]).foldlM p.runStage { settings, records }).run = .ok state →
      state.hasAny .error → ∃ trouble, (p.run settings records).run = .error trouble

def alarm : Stage :=
  .notify { severity := .error, stage := "alarm", message := "refused" }

def report : Stage :=
  .notify { severity := .info, stage := "report", message := "done" }

def Pipeline.alarmed : Pipeline Id where
  added := [alarm, report]
  observers := [{ name := "quiet" }]

theorem Pipeline.errors_stop_validation_alarmed :
    ((∀ o ∈ alarmed.observers, o.IgnoresNotices) ∧
      ∀ stage ∈ alarmed.added, stage.IgnoresNotices) ∧
    ∀ notices state,
      [alarm, report].foldlM alarmed.runStage (State.prepend notices state) =
        State.prepend notices <$> [alarm, report].foldlM alarmed.runStage state := by
  have hobservers : ∀ o ∈ alarmed.observers, o.IgnoresNotices := by
    intro o ho
    obtain rfl := List.mem_singleton.mp ho
    exact ⟨fun _ _ _ => rfl, fun _ _ _ => rfl⟩
  have hadded : ∀ stage ∈ alarmed.added, stage.IgnoresNotices := by
    intro stage hstage
    obtain rfl | hstage := List.mem_cons.mp hstage
    . exact Stage.ignoresNotices_notify _
    . obtain rfl := List.mem_singleton.mp hstage
      exact Stage.ignoresNotices_notify _
  exact ⟨⟨hobservers, hadded⟩, alarmed.errors_stop_validation.2 hobservers hadded _ ⟨_, rfl⟩⟩

theorem Pipeline.not_stopsAtErrors_alarmed : ¬ alarmed.StopsAtErrors .standard [] := by
  intro h
  have herror := h [.validate Lint.standard, .extract, .register] alarm [report] _ rfl rfl rfl
  obtain ⟨trouble, htrouble⟩ := herror
  cases htrouble

end Facade.Batch
