import Facade.Proofs.Delivery
import Facade.Proofs.Places

/-!
This module contains the proofs about the ways in which a batch can be gone through: its check, its
preview and its generation into a directory agree on every class.
-/

namespace Facade

open Text Host Outcome Scala Files Batch

namespace Outcome

section

variable {σ ε ε' α β : Type} {allowed : ε → Prop} {s : σ}

/-- What holds of a computation that has a result with a property, unless it fails with an error
that is allowed. -/
structure Ensures (allowed : ε → Prop) (s : σ) (x : ExceptT ε (StateM σ) α) (post : α → σ → Prop) :
    Prop where
  result : ∀ a after, runFrom s x = (.ok a, after) → post a after
  failure : ∀ e after, runFrom s x = (.error e, after) → allowed e

theorem Ensures.mono {x : ExceptT ε (StateM σ) α} {post post' : α → σ → Prop}
    (h : Ensures allowed s x post)
    (himp : ∀ a after, runFrom s x = (.ok a, after) → post a after → post' a after) :
    Ensures allowed s x post' where
  result a after hrun := himp a after hrun (h.result a after hrun)
  failure := h.failure

theorem Ensures.bind {x : ExceptT ε (StateM σ) α} {f : α → ExceptT ε (StateM σ) β}
    {between : α → σ → Prop} {post : β → σ → Prop} (hx : Ensures allowed s x between)
    (hf : ∀ a s', between a s' → Ensures allowed s' (f a) post) :
    Ensures allowed s (x >>= f) post where
  result := by
    intro b after hrun
    obtain ⟨a, s', ha, hb⟩ := runFrom_bind_eq_ok_iff.mp hrun
    exact (hf a s' (hx.result a s' ha)).result b after hb
  failure := by
    intro e after hrun
    rw [runFrom_bind] at hrun
    split at hrun
    . next a s' ha => exact (hf a s' (hx.result a s' ha)).failure e after hrun
    . next e' s' he =>
      cases hrun
      exact hx.failure _ _ he

theorem runFrom_adapt (x : ExceptT ε (StateM σ) α) (f : ε → ε') :
    runFrom s (x.adapt f) = ((runFrom s x).1.mapError f, (runFrom s x).2) := rfl

theorem Ensures.adapt {x : ExceptT ε (StateM σ) α} {post : α → σ → Prop} {f : ε → ε'}
    {allowed' : ε' → Prop} (h : Ensures allowed s x post) (hf : ∀ e, allowed e → allowed' (f e)) :
    Ensures allowed' s (x.adapt f) post where
  result := by
    intro a after hrun
    rw [runFrom_adapt, Prod.mk.injEq] at hrun
    exact h.result a after (Prod.ext (mapError_eq_ok_iff.mp hrun.1) hrun.2)
  failure := by
    intro e after hrun
    cases hx : (runFrom s x).1 with
    | ok a =>
      rw [runFrom_adapt, hx] at hrun
      cases hrun
    | error e' =>
      rw [runFrom_adapt, hx] at hrun
      cases hrun
      exact hf e' (h.failure e' _ (Prod.ext hx rfl))

theorem exists_runFrom {x : ExceptT ε (StateM σ) α} {f : α → β} {b : β}
    (h : (runFrom s x).1.map f = .ok b) : ∃ a after, runFrom s x = (.ok a, after) ∧ f a = b := by
  obtain ⟨a, hx, hf⟩ := map_eq_ok_iff.mp h
  exact ⟨a, (runFrom s x).2, Prod.ext hx rfl, hf⟩

theorem ensures_pure {a : α} {post : α → σ → Prop} (h : post a s) :
    Ensures allowed s (pure a) post where
  result := by
    rintro _ _ ⟨⟩
    exact h
  failure := by
    rintro _ _ ⟨⟩

theorem ensures_throw {e : ε} {post : α → σ → Prop} (h : allowed e) :
    Ensures allowed s (throw e) post where
  result := by
    rintro _ _ ⟨⟩
  failure := by
    rintro _ _ ⟨⟩
    exact h

theorem ensures_liftM (x : StateM σ α) : Ensures allowed s (liftM x) fun _ _ => True where
  result _ _ _ := trivial
  failure := by
    rintro _ _ ⟨⟩

theorem ensures_liftExcept {x : Except ε α} {a : α} (hx : x = .ok a) :
    Ensures allowed s (liftExcept x) fun a' after => a' = a ∧ after = s := by
  rw [hx]
  exact ensures_pure ⟨rfl, rfl⟩

theorem ensures_foldlM {step : β → α → ExceptT ε (StateM σ) β} {plain : β → α → Except ε' β}
    {items : List α}
    (hstep : ∀ item ∈ items, ∀ b b' s, plain b item = .ok b' →
      Ensures allowed s (step b item) fun b'' _ => b'' = b')
    {b b' : β} (h : items.foldlM plain b = .ok b') (s : σ) :
    Ensures allowed s (items.foldlM step b) fun b'' _ => b'' = b' := by
  induction items generalizing b s with
  | nil =>
    cases h
    exact ensures_pure rfl
  | cons item items ih =>
    rw [List.foldlM_cons] at h ⊢
    obtain ⟨between, hitem, hitems⟩ := bind_eq_ok_iff.mp h
    apply (hstep item List.mem_cons_self b between s hitem).bind
    rintro _ s' rfl
    exact ih (fun item hmem => hstep item (List.mem_cons_of_mem _ hmem)) hitems s'

theorem ensures_mapM {f : α → ExceptT ε (StateM σ) β} {items : List α}
    (hf : ∀ item ∈ items, ∀ s, Ensures allowed s (f item) fun _ _ => True) (s : σ) :
    Ensures allowed s (items.mapM f) fun _ _ => True := by
  induction items generalizing s with
  | nil => exact ensures_pure trivial
  | cons item items ih =>
    rw [List.mapM_cons]
    apply (hf item List.mem_cons_self s).bind
    intro result between _
    apply (ih (fun item hmem => hf item (List.mem_cons_of_mem _ hmem)) between).bind
    intro results after _
    exact ensures_pure trivial

theorem length_of_runFrom_mapM {f : α → ExceptT ε (StateM σ) β} {items : List α}
    {results : List β} {after : σ} (h : runFrom s (items.mapM f) = (.ok results, after)) :
    results.length = items.length :=
  Report.length_of_canReturn_mapM (Report.canReturn_of_run (congrArg Prod.fst h))

end

end Outcome

namespace Batch

/-- Whether a trouble is that a file could not be written, whatever was going on. -/
def Trouble.isUnwritable : Trouble → Bool
  | unwritable _ => true
  | during _ cause => cause.isUnwritable
  | _ => false

/-- Whether an observer leaves the states of a batch as they are, unless it cannot write a file. -/
structure Observer.IsQuiet (o : Observer (StateM Store)) : Prop where
  before : ∀ stage state store, Ensures (Trouble.isUnwritable · = true) store
    (o.before stage state) fun state' _ => state' = state
  after : ∀ stage state store, Ensures (Trouble.isUnwritable · = true) store
    (o.after stage state) fun state' _ => state' = state

namespace Snapshot

variable {store : Store}

theorem ensures_write (directory : Path) (s : Snapshot) :
    Ensures (Trouble.isUnwritable · = true) store
      (write directory s : ExceptT Trouble (StateM Store) Unit) fun _ _ => True := by
  unfold write
  dsimp only
  refine (ensures_liftM _).bind ?_
  intro ready made _
  split
  . exact ensures_throw rfl
  . refine (ensures_liftM _).bind ?_
    intro written after _
    split
    . exact ensures_throw rfl
    . exact ensures_pure trivial

theorem isQuiet_filer (directory : Path) : (filer directory : Observer (StateM Store)).IsQuiet where
  before _ _ _ := ensures_pure rfl
  after stage state store := by
    apply (ensures_write directory (ofState stage state)).bind
    intro _ _ _
    exact ensures_pure rfl

end Snapshot

namespace Pipeline

variable {settings : Settings} {records : List Record} {state : State}

theorem ensures_calls {observers : List (Observer (StateM Store))}
    {call : State → Observer (StateM Store) → ExceptT Trouble (StateM Store) State}
    (hcall : ∀ o ∈ observers, ∀ state store,
      Ensures (Trouble.isUnwritable · = true) store (call state o) fun state' _ => state' = state)
    (state : State) (store : Store) :
    Ensures (Trouble.isUnwritable · = true) store (observers.foldlM call state)
      fun state' _ => state' = state := by
  have hplain : observers.foldlM (fun state _ => .ok state) state =
      (.ok state : Except Trouble State) := by
    clear hcall
    induction observers with
    | nil => rfl
    | cons o observers ih => exact ih
  apply ensures_foldlM _ hplain
  rintro o ho before _ store ⟨⟩
  exact hcall o ho before store

/-- Stages come to the same with observers that leave the states of a batch as they are, unless one
of these cannot write a file. -/
theorem ensures_run {p : Pipeline (StateM Store)} (hquiet : ∀ o ∈ p.observers, o.IsQuiet)
    (hstages : p.stages.foldlM (fun state stage => stage.run state) { settings, records } =
      .ok state) (store : Store) :
    Ensures (Trouble.isUnwritable · = true) store (p.run settings records)
      fun state' _ => state' = state := by
  apply ensures_foldlM _ hstages
  intro stage _ before after store hstage
  have hbefore : ∀ o ∈ p.observers, ∀ state store,
      Ensures (Trouble.isUnwritable · = true) store (callBefore stage.name state o)
        fun state' _ => state' = state :=
    fun o ho state store => ((hquiet o ho).before stage.name state store).adapt fun _ => id
  have hafter : ∀ o ∈ p.observers, ∀ state store,
      Ensures (Trouble.isUnwritable · = true) store (callAfter stage.name state o)
        fun state' _ => state' = state :=
    fun o ho state store => ((hquiet o ho).after stage.name state store).adapt fun _ => id
  unfold runStage
  apply (ensures_calls hbefore before store).bind
  rintro _ store' rfl
  apply (ensures_liftExcept (mapError_eq_ok_iff.mpr hstage)).bind
  rintro _ _ ⟨rfl, rfl⟩
  exact ensures_calls hafter _ _

theorem run_of_stages {p : Pipeline (StateM Store)} (hnone : p.observers = [])
    (hstages : p.stages.foldlM (fun state stage => stage.run state) { settings, records } =
      .ok state) :
    p.run settings records = pure state := by
  have hfold : ∀ (stages : List Stage) (before : State),
      stages.foldlM (fun state stage => stage.run state) before = .ok state →
        stages.foldlM p.runStage before = pure state := by
    intro stages
    induction stages with
    | nil =>
      rintro _ ⟨⟩
      rfl
    | cons stage stages ih =>
      intro before h
      rw [List.foldlM_cons] at h ⊢
      obtain ⟨between, hstage, hrest⟩ := bind_eq_ok_iff.mp h
      have hrunStage : p.runStage before stage = pure between := by
        simp only [runStage, hnone, List.foldlM_nil, pure_bind, hstage]
        rfl
      rw [hrunStage, pure_bind]
      exact ih between hrest
  exact hfold _ _ hstages

theorem noticesOf_error (hrun : (({} : Pipeline Id).run settings records).run = .ok state) :
    state.noticesOf .error = [] := by
  obtain ⟨validated, hvalidate, hstages⟩ :=
    bind_eq_ok_iff.mp (stages_silent isSilent_of_mem_default hrun)
  simp only [Stage.validate] at hvalidate
  split at hvalidate
  . cases hvalidate
  . next hnone =>
    cases hvalidate
    cases hstages
    rw [State.noticesOf, List.filter_eq_nil_iff]
    intro notice hnotice hseverity
    exact hnone (List.any_eq_true.mpr ⟨notice, hnotice, hseverity⟩)

end Pipeline

end Batch

namespace Report

/-- Batches that have gone through their stages come to one result with any number of workers. -/
theorem exists_generate (settings : Settings) (records : List Record) :
    ∃ state result, (({} : Pipeline Id).run settings records).run = .ok state ∧
      Yields settings records result ∧ ∀ jobs, generate state jobs = .ok result := by
  obtain ⟨result, hyields⟩ := exists_yields settings records
  obtain ⟨state, g, hrun, hg, jobs, processors, hresult⟩ := hyields
  refine ⟨state, result, hrun, ⟨state, g, hrun, hg, jobs, processors, hresult⟩, fun jobs' => ?_⟩
  have hsame : (g.withJobs jobs').generate = (g.withWorkers jobs processors).generate := by
    rw [← generate_iff _ 1]
    exact (generate_iff (g.withWorkers jobs processors) 1 _).mpr rfl
  exact bind_eq_ok_iff.mpr ⟨g, hg, mapError_eq_ok_iff.mpr (hsame.trans hresult)⟩

theorem ensures_writeFile (directory : Path) (file : GeneratedFile) (store : Store) :
    Ensures (Trouble.isUnwritable · = true) store (writeFile directory file) fun _ _ => True := by
  refine ⟨fun _ _ _ => trivial, ?_⟩
  intro trouble after hrun
  rw [runFrom_writeFile] at hrun
  split at hrun
  . cases hrun
  . cases hrun
    rfl

/-- Whether wrappers were shown or written as they were asked for: a preview has all of them, and
otherwise each of them is where it belongs. -/
def Product.Presents (options : Options) (result : Result) (after : Store) : Product → Prop
  | .preview shown => options.dryRun = true ∧ shown = result.generated.map Prod.snd
  | .files directory written _ =>
    options.dryRun = false ∧ directory = options.output ∧
      written.map WrittenFile.path = result.generated.map (fun e => e.2.path) ∧
      ∀ e ∈ result.generated, Holds after directory e.2

theorem ensures_deliver {result : Result} {store : Store} (options : Options)
    (hplaces : (result.generated.map fun e =>
      store.target (Path.join options.output e.2.path)).Nodup) :
    Ensures (Trouble.isUnwritable · = true) store (deliver options result)
      fun product after => product.Presents options result after := by
  unfold deliver
  dsimp only
  split
  . next hdry => exact ensures_pure ⟨hdry, rfl⟩
  . next hdry =>
    have hwritten : Ensures (Trouble.isUnwritable · = true) store (writeFiles options.output result)
        fun outcomes after => outcomes.length = result.generated.length ∧
          ∀ e ∈ result.generated, Holds after options.output e.2 := by
      apply (ensures_mapM (fun e _ => ensures_writeFile options.output e.2) store).mono
      intro outcomes after hrun _
      exact ⟨length_of_runFrom_mapM hrun, (holds_of_mapM hplaces hrun).2.2⟩
    apply hwritten.bind
    rintro outcomes after ⟨hlength, hholds⟩
    refine ensures_pure ⟨Bool.eq_false_of_not_eq_true hdry, rfl, ?_, hholds⟩
    apply List.ext_getElem
    . simp [hlength]
    . intro n hleft hright
      simp

section

variable {settings : Settings} {records : List Record} {state : State} {result : Result}

/-- The check of a batch comes to the one result that the batch has with any number of workers. -/
theorem exists_check (hrun : (({} : Pipeline Id).run settings records).run = .ok state)
    (hgenerate : ∀ jobs, generate state jobs = .ok result) (settingsPath : Path) :
    ∃ checked, check settings records settingsPath = .ok checked ∧
      checked.classes = result.generated.map (fun e => (e.1, e.2.path)) ∧
      checked.failures = result.failures ∧ checked.errors = [] := by
  refine ⟨_, bind_eq_ok_iff.mpr ⟨state, mapError_eq_ok_iff.mpr hrun,
    bind_eq_ok_iff.mpr ⟨result, hgenerate none, rfl⟩⟩, rfl, rfl, ?_⟩
  rw [noticesOf, Pipeline.noticesOf_error hrun, List.map_nil]

theorem ensures_generateBatch (hrun : (({} : Pipeline Id).run settings records).run = .ok state)
    (hyields : Yields settings records result)
    (hgenerate : ∀ jobs, generate state jobs = .ok result) (options : Options) (store : Store) :
    Ensures (Trouble.isUnwritable · = true) store (generateBatch settings records options)
      fun report after => report.failures = result.failures ∧
        report.product.Presents options result after := by
  have hstages := Pipeline.stages_silent Pipeline.isSilent_of_mem_default hrun
  -- snapshots are taken while the stages run, and leave the states as they are
  have hquiet : ∀ o ∈ if options.visualize then [Snapshot.filer options.snapshots] else [],
      Observer.IsQuiet o := by
    intro o ho
    split at ho
    . rw [List.mem_singleton.mp ho]
      exact Snapshot.isQuiet_filer _
    . cases ho
  unfold generateBatch
  apply ((Pipeline.ensures_run hquiet hstages store).adapt fun _ => id).bind
  rintro _ between rfl
  apply (ensures_liftExcept (hgenerate options.jobs)).bind
  rintro _ _ ⟨rfl, rfl⟩
  apply (ensures_deliver options (hyields.nodup_targets _ _)).bind
  intro product after hpresents
  exact ensures_pure ⟨rfl, hpresents⟩

/-- A preview that nobody observes writes nothing, so that it is a value. -/
theorem exists_preview (hrun : (({} : Pipeline Id).run settings records).run = .ok state)
    (hgenerate : ∀ jobs, generate state jobs = .ok result) {options : Options}
    (hdry : options.dryRun = true) (hnone : options.visualize = false) (store : Store) :
    ∃ report, runFrom store (generateBatch settings records options) = (.ok report, store) := by
  have hstages := Pipeline.stages_silent Pipeline.isSilent_of_mem_default hrun
  have hstate : (({} : Pipeline (StateM Store)).run settings records).adapt
      (Trouble.during "Pipeline failed") = pure state := by
    rw [Pipeline.run_of_stages rfl hstages]
    rfl
  have hresult : (liftExcept (generate state options.jobs) :
      ExceptT Trouble (StateM Store) Result) = pure result := by
    rw [hgenerate]
    rfl
  have hpreview : (deliver options result : ExceptT Trouble (StateM Store) Product) =
      pure (.preview (result.generated.map Prod.snd)) := if_pos hdry
  unfold generateBatch
  simp only [hnone, Bool.false_eq_true, if_false, hstate, hresult, hpreview, pure_bind]
  exact ⟨_, rfl⟩

end

/-- The check of a batch, its preview and its generation into a directory agree about it, with any
number of workers: the check shows the paths of the wrappers and the failures that the other two
come to, and a preview has the texts that generation leaves in the directory. A generation that
comes to nothing could not write a file, which a preview without snapshots does not do. -/
theorem check_agrees (settings : Settings) (records : List Record) (settingsPath : Path) :
    ∃ checked result, check settings records settingsPath = .ok checked ∧
      Yields settings records result ∧
      checked.classes = result.generated.map (fun e => (e.1, e.2.path)) ∧
      checked.failures = result.failures ∧
      checked.errors = [] ∧
      ∀ (options : Options) (store : Store),
        Ensures (Trouble.isUnwritable · = true) store (generateBatch settings records options)
          (fun report after =>
            report.failures = checked.failures ∧ (report.isComplete ↔ checked.isValid) ∧
            report.product.Presents options result after) ∧
        (options.dryRun = true → options.visualize = false →
          ∃ report, runFrom store (generateBatch settings records options) =
            (.ok report, store)) := by
  obtain ⟨state, result, hrun, hyields, hgenerate⟩ := exists_generate settings records
  obtain ⟨checked, hchecked, hclasses, hfailures, herrors⟩ :=
    exists_check hrun hgenerate settingsPath
  refine ⟨checked, result, hchecked, hyields, hclasses, hfailures, herrors, ?_⟩
  intro options store
  constructor
  . apply (ensures_generateBatch hrun hyields hgenerate options store).mono
    rintro report after - ⟨hsame, hpresents⟩
    refine ⟨hsame.trans hfailures.symm, ?_, hpresents⟩
    simp [Generation.isComplete, Check.isValid, herrors, hfailures, hsame]
  . exact fun hdry hnone => exists_preview hrun hgenerate hdry hnone store

set_option maxRecDepth 10000 in
/-- Three of five classes get wrappers. They are written beside snapshots, and a preview with three
workers shows them. -/
theorem check_agrees_chain :
    ∃ (checked : Check) (result : Result) (report shown : Generation) (after : Store),
      check Settings.standard chainRecords "wrapgen.toml" = .ok checked ∧
      checked.classes = result.generated.map (fun e => (e.1, e.2.path)) ∧
      runFrom (Store.within ["home"]) (generateBatch Settings.standard chainRecords
        { output := "out", visualize := true }) = (.ok report, after) ∧
      report.count = 3 ∧ report.isComplete = false ∧ report.failures = checked.failures ∧
      checked.isValid = false ∧ (∀ e ∈ result.generated, Holds after "out" e.2) ∧
      runFrom (Store.within ["home"]) (generateBatch Settings.standard chainRecords
        { output := "out", dryRun := true, jobs := some 3 }) = (.ok shown, Store.within ["home"]) ∧
      shown.product = .preview (result.generated.map Prod.snd) := by
  obtain ⟨checked, result, hchecked, -, hclasses, -, -, hruns⟩ :=
    check_agrees Settings.standard chainRecords "wrapgen.toml"
  have hreport : (runFrom (Store.within ["home"]) (generateBatch Settings.standard chainRecords
      { output := "out", visualize := true })).1.map
        (fun report => (report.count, report.isComplete)) = .ok (3, false) := by
    decide +kernel
  obtain ⟨report, after, hwritten, hcounted⟩ := exists_runFrom hreport
  rw [Prod.mk.injEq] at hcounted
  obtain ⟨hreal, -⟩ := hruns { output := "out", visualize := true } (Store.within ["home"])
  obtain ⟨hfailures, hcomplete, hpresents⟩ := hreal.result _ _ hwritten
  obtain ⟨hdry, hpreview⟩ :=
    hruns { output := "out", dryRun := true, jobs := some 3 } (Store.within ["home"])
  obtain ⟨shown, hshown⟩ := hpreview rfl rfl
  obtain ⟨-, -, hpreviewed⟩ := hdry.result _ _ hshown
  refine ⟨checked, result, report, shown, after, hchecked, hclasses, hwritten, hcounted.1,
    hcounted.2, hfailures, ?_, ?_, hshown, ?_⟩
  . rw [Bool.eq_false_iff]
    intro hvalid
    rw [hcomplete.mpr hvalid] at hcounted
    cases hcounted.2
  . cases hproduct : report.product with
    | files directory written snapshots =>
      rw [hproduct] at hpresents
      obtain ⟨-, rfl, -, hholds⟩ := hpresents
      exact hholds
    | preview files =>
      rw [hproduct] at hpresents
      cases hpresents.1
  . cases hproduct : shown.product with
    | files directory written snapshots =>
      rw [hproduct] at hpreviewed
      cases hpreviewed.1
    | preview files =>
      rw [hproduct] at hpreviewed
      rw [hpreviewed.2]

end Report

end Facade
