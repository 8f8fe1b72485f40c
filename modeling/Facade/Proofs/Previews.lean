import Facade.Proofs.Agreement
import Facade.Proofs.Files.Changes

/-!
This module contains the proofs about what previews do to a store: a preview alone does nothing, and
one with snapshots writes those.
-/

namespace Facade

open Text Outcome Files Batch

namespace Batch

/-- Whether a computation on a store comes to a value, or to the trouble that a file could not be
written, and what has become of the store then. -/
inductive Comes (store : Store) (x : ExceptT Trouble (StateM Store) α) (a : α) :
    (result : Bool × Store) → Prop where
  | done {after : Store} : runFrom store x = (.ok a, after) → Comes store x a (true, after)
  | failed {after : Store} {trouble : Trouble} : trouble.isUnwritable = true →
    runFrom store x = (.error trouble, after) → Comes store x a (false, after)

section

variable {α β : Type} {store between after : Store} {x : ExceptT Trouble (StateM Store) α} {a : α}
  {b : β} {result : Bool × Store}

theorem Comes.bind {f : α → ExceptT Trouble (StateM Store) β} (hx : Comes store x a (true, between))
    (hf : Comes between (f a) b result) : Comes store (x >>= f) b result := by
  cases hx with
  | done hx =>
    cases hf with
    | done hf => exact .done (by rw [runFrom_bind, hx]; exact hf)
    | failed htrouble hf => exact .failed htrouble (by rw [runFrom_bind, hx]; exact hf)

theorem Comes.bind_of_done {f : α → ExceptT Trouble (StateM Store) β} (hx : Comes store x a result)
    (hf : ∀ between, runFrom between (f a) = (.ok b, between)) : Comes store (x >>= f) b result := by
  cases hx with
  | done hx => exact .done (by rw [runFrom_bind, hx]; exact hf _)
  | failed htrouble hx => exact .failed htrouble (by rw [runFrom_bind, hx])

theorem Comes.bind_of_failed {f : α → ExceptT Trouble (StateM Store) β}
    (hx : Comes store x a (false, after)) : Comes store (x >>= f) b (false, after) := by
  cases hx with
  | failed htrouble hx => exact .failed htrouble (by rw [runFrom_bind, hx])

theorem Comes.during (h : Comes store x a result) (activity : String) :
    Comes store (x.adapt (.during activity)) a result := by
  cases h with
  | done h => exact .done (by rw [runFrom_adapt, h]; rfl)
  | @failed _ trouble htrouble h =>
    have hcause : (Trouble.during activity trouble).isUnwritable = true := htrouble
    exact .failed hcause (by rw [runFrom_adapt, h]; rfl)

end

namespace Snapshot

def filed (directory : Path) (s : Snapshot) (store : Store) : Bool × Store :=
  match Store.makeDirectories directory store with
  | (false, made) => (false, made)
  | (true, made) => Store.writeText (s.path directory) (Json.write s.tree) made

/-- What the writing of the files for snapshots comes to, which ends with the first one that cannot be
written. -/
def filedAll (directory : Path) : List Snapshot → Store → Bool × Store
  | [], store => (true, store)
  | s :: snapshots, store =>
    match filed directory s store with
    | (false, after) => (false, after)
    | (true, after) => filedAll directory snapshots after

/-- The snapshots of a batch that goes through stages, up to the first one that fails. -/
def trail : List Stage → State → List Snapshot
  | [], _ => []
  | stage :: stages, state =>
    match stage.run state with
    | .error _ => []
    | .ok state => ofState stage.name state :: trail stages state

/-- The snapshots of a batch that goes through the stages of every batch. -/
def ofBatch (settings : Settings) (records : List Record) : List Snapshot :=
  trail ({} : Pipeline Id).stages { settings, records }

section

variable {directory : Path} {store after : Store} {before state : State}

theorem comes_write (directory : Path) (s : Snapshot) (store : Store) :
    Comes store (write directory s) () (filed directory s store) := by
  have hmake : runFrom store (liftM (Access.makeDirectories directory : StateM Store Bool) :
      ExceptT Trouble (StateM Store) Bool) = (.ok (Store.makeDirectories directory store).1,
        (Store.makeDirectories directory store).2) := rfl
  unfold write filed
  dsimp only
  generalize Store.makeDirectories directory store = result at hmake ⊢
  obtain ⟨ready, made⟩ := result
  apply Comes.bind (.done hmake)
  cases ready with
  | false => exact .failed rfl rfl
  | true =>
    have hwrite : runFrom made (liftM (Access.writeText (s.path directory) (Json.write s.tree) :
        StateM Store Bool) : ExceptT Trouble (StateM Store) Bool) =
          (.ok (Store.writeText (s.path directory) (Json.write s.tree) made).1,
            (Store.writeText (s.path directory) (Json.write s.tree) made).2) := rfl
    dsimp only
    generalize Store.writeText (s.path directory) (Json.write s.tree) made = result at hwrite ⊢
    obtain ⟨written, after⟩ := result
    apply Comes.bind (.done hwrite)
    cases written with
    | false => exact .failed rfl rfl
    | true => exact .done rfl

/-- A stage with the writing of snapshots comes to what the stage alone comes to, if the snapshot can be
written. -/
theorem comes_runStage {p : Pipeline (StateM Store)} (hobservers : p.observers = [filer directory])
    {stage : Stage} (hstage : stage.run before = .ok state) (store : Store) :
    Comes store (p.runStage before stage) state (filed directory (ofState stage.name state) store) := by
  have hbefore : [filer directory].foldlM (Pipeline.callBefore stage.name) before =
      (pure before : ExceptT Trouble (StateM Store) State) := rfl
  have hafter : [filer directory].foldlM (Pipeline.callAfter stage.name) state =
      (Pipeline.callAfter stage.name state (filer directory) :
        ExceptT Trouble (StateM Store) State) := by
    simp only [List.foldlM_cons, List.foldlM_nil, bind_pure]
  have hlift : ∀ failed : Trouble → Trouble, (liftExcept ((Except.ok state).mapError failed) :
      ExceptT Trouble (StateM Store) State) = pure state := fun _ => rfl
  simp only [Pipeline.runStage, hobservers, hbefore, pure_bind, hstage, hlift, hafter]
  apply Comes.during
  exact (comes_write directory (ofState stage.name state) store).bind_of_done fun _ => rfl

theorem comes_foldlM {p : Pipeline (StateM Store)} (hobservers : p.observers = [filer directory])
    {stages : List Stage} (hstages : stages.foldlM (fun state stage => stage.run state) before =
      .ok state) (store : Store) :
    Comes store (stages.foldlM p.runStage before) state
      (filedAll directory (trail stages before) store) := by
  induction stages generalizing before store with
  | nil =>
    cases hstages
    exact .done rfl
  | cons stage stages ih =>
    rw [List.foldlM_cons] at hstages ⊢
    obtain ⟨between, hstage, hrest⟩ := bind_eq_ok_iff.mp hstages
    have hrun := comes_runStage hobservers hstage store
    rw [trail, hstage]
    dsimp only
    rw [filedAll]
    generalize filed directory (ofState stage.name between) store = result at hrun ⊢
    obtain ⟨written, after⟩ := result
    cases written with
    | true => exact hrun.bind (ih hrest after)
    | false => exact hrun.bind_of_failed

/-- The files for snapshots, each with the place that its path leads to and its text. -/
def files (directory : Path) (store : Store) (snapshots : List Snapshot) : List (Location × String) :=
  snapshots.map fun s => (store.target (s.path directory), Json.write s.tree)

theorem files_of_grows (h : store.Grows after) (snapshots : List Snapshot) :
    files directory after snapshots = files directory store snapshots := by
  unfold files
  simp only [h.target]

theorem becomes_filed (directory : Path) (s : Snapshot) (store : Store) :
    store.Becomes (store.Passes directory) (files directory store [s])
      (filed directory s store).2 := by
  have hmade : store.Becomes (store.Passes directory) (files directory store [s])
      (Store.makeDirectories directory store).2 := Store.becomes_makeDirectories _ _
  unfold filed
  generalize Store.makeDirectories directory store = result at hmade ⊢
  obtain ⟨ready, made⟩ := result
  cases ready with
  | false => exact hmade
  | true =>
    have hwritten : made.Becomes (store.Passes directory) (files directory made [s])
        (Store.writeText (s.path directory) (Json.write s.tree) made).2 :=
      Store.becomes_writeText _ _ _
    rw [files_of_grows hmade.grows] at hwritten
    exact hmade.trans hwritten

theorem becomes_filedAll (directory : Path) (snapshots : List Snapshot) (store : Store) :
    store.Becomes (store.Passes directory) (files directory store snapshots)
      (filedAll directory snapshots store).2 := by
  induction snapshots generalizing store with
  | nil => exact .refl store
  | cons s snapshots ih =>
    have hfirst := (becomes_filed directory s store).mono (fun _ => id)
      (List.cons_subset_cons _ (List.nil_subset (files directory store snapshots)))
    unfold filedAll
    generalize filed directory s store = result at hfirst ⊢
    obtain ⟨written, between⟩ := result
    cases written with
    | false => exact hfirst
    | true =>
      have hrest := ih between
      rw [hfirst.grows.passes, files_of_grows hfirst.grows] at hrest
      exact hfirst.trans (hrest.mono (fun _ => id) (List.subset_cons_self _ _))

theorem wrote_of_filed {s : Snapshot} (h : filed directory s store = (true, after)) :
    ∃ location, after.locate? (s.path directory) = some location ∧
      after.node? location = some (.file (Json.write s.tree)) := by
  unfold filed at h
  split at h
  . cases h
  . next made _ =>
    obtain ⟨location, hlocate, hwrote⟩ := Store.wrote_writeText h
    exact ⟨location, hwrote.grows.locate? hlocate, hwrote.written⟩

theorem read_of_filedAll {snapshots : List Snapshot}
    (hplaces : ((files directory store snapshots).map Prod.fst).Nodup)
    (h : filedAll directory snapshots store = (true, after)) :
    ∀ s ∈ snapshots, after.readText? (s.path directory) = some (Json.write s.tree) := by
  induction snapshots generalizing store with
  | nil => exact List.forall_mem_nil _
  | cons s snapshots ih =>
    unfold filedAll at h
    split at h
    . cases h
    . next between hfiled =>
      have hgrows : store.Grows between := by
        have hbecomes := becomes_filed directory s store
        rw [hfiled] at hbecomes
        exact hbecomes.grows
      rw [files, List.map_cons, List.map_cons, List.nodup_cons, ← files,
        ← files_of_grows hgrows, ← hgrows.target] at hplaces
      have hrest := becomes_filedAll directory snapshots between
      rw [h] at hrest
      obtain ⟨location, hlocate, hnode⟩ := wrote_of_filed hfiled
      rw [List.forall_mem_cons]
      refine ⟨Store.readText?_of_node? (hrest.grows.locate? hlocate) ?_, ih hplaces.2 h⟩
      apply hrest.node?_of_not_mem hnode
      rw [Store.eq_target_of_locate? hlocate]
      exact hplaces.1

theorem node?_of_read {snapshots : List Snapshot}
    (hstages : snapshots.map Snapshot.stage = ["validate", "extract", "registry"])
    (hdirectory : directory ≠ "") (hend : directory.toList.getLast? ≠ some '/')
    (hbecomes : store.Becomes (store.Passes directory) (files directory store snapshots) after)
    (hread : ∀ s ∈ snapshots, store.readText? (s.path directory) = some (Json.write s.tree)) :
    ∀ location, after.node? location = store.node? location := by
  apply hbecomes.node?_eq
  . -- One file in the directory is enough for all that is on the way to it.
    intro location
    cases snapshots with
    | nil => cases hstages
    | cons s snapshots =>
      rw [List.map_cons, List.cons.injEq] at hstages
      obtain ⟨place, hlocate, -⟩ := Store.readText?_eq_some (hread s List.mem_cons_self)
      rw [path, hstages.1] at hlocate
      exact Store.directory_of_passes (by decide) hdirectory hend hlocate
  . intro location content hfile
    obtain ⟨s, hs, heq⟩ := List.mem_map.mp hfile
    cases heq
    obtain ⟨place, hlocate, hnode⟩ := Store.readText?_eq_some (hread s hs)
    rw [← Store.eq_target_of_locate? hlocate]
    exact hnode

theorem map_stage_trail {stages : List Stage}
    (hstages : stages.foldlM (fun state stage => stage.run state) before = .ok state) :
    (trail stages before).map Snapshot.stage = stages.map Stage.name := by
  induction stages generalizing before with
  | nil => rfl
  | cons stage stages ih =>
    rw [List.foldlM_cons] at hstages
    obtain ⟨between, hstage, hrest⟩ := bind_eq_ok_iff.mp hstages
    rw [trail, hstage]
    dsimp only
    rw [List.map_cons, List.map_cons, ih hrest]
    rfl

theorem nodup_files {snapshots : List Snapshot}
    (hstages : snapshots.map Snapshot.stage = ["validate", "extract", "registry"])
    (directory : Path) (store : Store) :
    ((files directory store snapshots).map Prod.fst).Nodup := by
  have hmap : (files directory store snapshots).map Prod.fst =
      (snapshots.map Snapshot.stage).map fun stage =>
        store.target (Path.join directory (stage ++ ".json")) := by
    rw [files, List.map_map, List.map_map]
    rfl
  have hdescends : ∀ stage ∈ ["validate", "extract", "registry"],
      Path.Descends (stage ++ ".json") := by
    unfold Path.Descends Path.IsPlain
    decide
  have hinj : ∀ stage ∈ ["validate", "extract", "registry"],
      ∀ stage' ∈ ["validate", "extract", "registry"],
        stage ++ ".json" = stage' ++ ".json" → stage = stage' := by
    decide
  rw [hmap, hstages]
  apply List.Nodup.map_on _ (by decide)
  intro stage hstage stage' hstage' hplace
  exact hinj stage hstage stage' hstage'
    (Store.target_join_inj (hdescends stage hstage) (hdescends stage' hstage') hplace)

end

end Snapshot

end Batch

namespace Report

theorem snapshots_open (options : Options) :
    options.snapshots ≠ "" ∧ options.snapshots.toList.getLast? ≠ some '/' := by
  have hends : ∀ front : String, front ++ ".wrapgen/debug" ≠ "" ∧
      (front ++ ".wrapgen/debug").toList.getLast? ≠ some '/' :=
    fun front => ⟨by simp, by simp⟩
  unfold Options.snapshots Path.join
  split
  . exact hends ""
  . split
    . exact hends _
    . exact hends _

theorem exists_stages (settings : Settings) (records : List Record) :
    ∃ state result, ({} : Pipeline Id).stages.foldlM (fun state stage => stage.run state)
      { settings, records } = .ok state ∧ ∀ jobs, generate state jobs = .ok result := by
  obtain ⟨state, result, hrun, -, hgenerate⟩ := exists_generate settings records
  exact ⟨state, result, Pipeline.stages_silent Pipeline.isSilent_of_mem_default hrun, hgenerate⟩

theorem stages_ofBatch (settings : Settings) (records : List Record) :
    (Snapshot.ofBatch settings records).map Snapshot.stage = ["validate", "extract", "registry"] := by
  obtain ⟨state, -, hstages, -⟩ := exists_stages settings records
  exact Snapshot.map_stage_trail hstages

/-- A preview comes to one report. It does nothing to a store but for the writing of snapshots, which
may fail. -/
theorem comes_preview (settings : Settings) (records : List Record) (options : Options) :
    ∃ report, ∀ store, Comes store (generateBatch settings records { options with dryRun := true })
      report (if options.visualize then
        Snapshot.filedAll options.snapshots (Snapshot.ofBatch settings records) store
      else (true, store)) := by
  obtain ⟨state, result, hstages, hgenerate⟩ := exists_stages settings records
  have hpipeline : ∀ store, Comes store
      (({ observers := if options.visualize then [Snapshot.filer options.snapshots] else [] } :
        Pipeline (StateM Store)).run settings records) state
      (if options.visualize then
        Snapshot.filedAll options.snapshots (Snapshot.ofBatch settings records) store
      else (true, store)) := by
    intro store
    split
    . exact Snapshot.comes_foldlM rfl hstages store
    . rw [Pipeline.run_of_stages rfl hstages]
      exact .done rfl
  refine ⟨⟨settings.generator.language, noticesOf .warning state, records.length,
    .preview (result.generated.map Prod.snd), result.failures⟩, fun store => ?_⟩
  apply ((hpipeline store).during "Pipeline failed").bind_of_done
  intro between
  rw [hgenerate]
  rfl

/-- What a preview does to a store. Without snapshots it does nothing. With them it writes a file after
each of the three stages, over a file that was there, and makes directories where nothing was on the way
to these files; nothing else changes, also if a file cannot be written. If all three can, they are there
with the snapshots in them, and so the store has changed unless they were there before. -/
theorem preview_writes_snapshots (settings : Settings) (records : List Record) (options : Options) :
    (Snapshot.ofBatch settings records).map Snapshot.stage = ["validate", "extract", "registry"] ∧
    ∃ report, ∀ store : Store, ∃ (outcome : Except Trouble Generation) (after : Store),
      runFrom store (generateBatch settings records { options with dryRun := true }) =
        (outcome, after) ∧
      (options.visualize = false → outcome = .ok report ∧ after = store) ∧
      (options.visualize = true → ∃ complete,
        Snapshot.filedAll options.snapshots (Snapshot.ofBatch settings records) store =
          (complete, after) ∧
        store.Becomes (store.Passes options.snapshots)
          (Snapshot.files options.snapshots store (Snapshot.ofBatch settings records)) after ∧
        (complete = false → ∃ trouble, outcome = .error trouble ∧ trouble.isUnwritable = true) ∧
        (complete = true → outcome = .ok report ∧
          (∀ s ∈ Snapshot.ofBatch settings records,
            after.readText? (s.path options.snapshots) = some (Json.write s.tree)) ∧
          ((∀ location, after.node? location = store.node? location) ↔
            ∀ s ∈ Snapshot.ofBatch settings records,
              store.readText? (s.path options.snapshots) = some (Json.write s.tree)))) := by
  obtain ⟨report, hcomes⟩ := comes_preview settings records options
  refine ⟨stages_ofBatch settings records, report, fun store => ?_⟩
  have hcomes := hcomes store
  generalize (generateBatch settings records { options with dryRun := true } :
    ExceptT Trouble (StateM Store) Generation) = x at hcomes ⊢
  cases hvisualize : options.visualize with
  | false =>
    rw [hvisualize, if_neg Bool.false_ne_true] at hcomes
    cases hcomes with
    | done hrun => exact ⟨_, _, hrun, fun _ => ⟨rfl, rfl⟩, nofun⟩
  | true =>
    rw [hvisualize, if_pos rfl] at hcomes
    have hbecomes := Snapshot.becomes_filedAll options.snapshots
      (Snapshot.ofBatch settings records) store
    generalize hfiled : Snapshot.filedAll options.snapshots
      (Snapshot.ofBatch settings records) store = result at hcomes hbecomes
    cases hcomes with
    | failed htrouble hrun =>
      exact ⟨_, _, hrun, nofun,
        fun _ => ⟨false, rfl, hbecomes, fun _ => ⟨_, rfl, htrouble⟩, nofun⟩⟩
    | done hrun =>
      have hread := Snapshot.read_of_filedAll
        (Snapshot.nodup_files (stages_ofBatch settings records) _ _) hfiled
      refine ⟨_, _, hrun, nofun,
        fun _ => ⟨true, rfl, hbecomes, nofun, fun _ => ⟨rfl, hread, ?_⟩⟩⟩
      constructor
      . intro hsame s hs
        rw [← Store.readText?_congr hbecomes.here hsame, hread s hs]
      . obtain ⟨hdirectory, hend⟩ := snapshots_open options
        exact Snapshot.node?_of_read (stages_ofBatch settings records) hdirectory hend hbecomes

set_option maxRecDepth 10000 in
/-- A preview of one class leaves three files in a store that had none. -/
theorem preview_leaves_files :
    (Store.within ["home"]).files = [] ∧
    (runFrom (Store.within ["home"]) (generateBatch Settings.standard
      [enumRecord "p.Kind" ["ON", "OFF"]]
      { output := "out", dryRun := true, visualize := true })).2.files =
        ["out/.wrapgen/debug/registry.json", "out/.wrapgen/debug/extract.json",
          "out/.wrapgen/debug/validate.json"] := by
  decide +kernel

end Report

end Facade
