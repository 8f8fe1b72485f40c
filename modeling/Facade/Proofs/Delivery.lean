import Facade.Proofs.Independence
import Facade.Proofs.Paths
import Facade.Report.Generate

/-!
This module contains the proofs about the writing of wrappers: every wrapper of a batch is where it was
written to after all of them were written, and writing them again changes nothing.
-/

namespace Facade

open Text Outcome Scala Files Batch

namespace Outcome

section

variable {σ ε α β : Type} {s s' : σ}

def runFrom (s : σ) (x : ExceptT ε (StateM σ) α) : Except ε α × σ :=
  (x.run.run s).run

theorem runFrom_liftM (x : StateM σ α) :
    runFrom s (liftM x : ExceptT ε (StateM σ) α) = (.ok (x.run s).run.1, (x.run s).run.2) := rfl

theorem runFrom_bind (x : ExceptT ε (StateM σ) α) (f : α → ExceptT ε (StateM σ) β) :
    runFrom s (x >>= f) =
      match runFrom s x with
      | (.ok a, between) => runFrom between (f a)
      | (.error e, between) => (.error e, between) := by
  unfold runFrom
  rw [ExceptT.run_bind, StateT.run_bind]
  generalize x.run.run s = r
  obtain ⟨outcome, between⟩ := r
  cases outcome <;> rfl

theorem runFrom_bind_eq_ok_iff {x : ExceptT ε (StateM σ) α} {f : α → ExceptT ε (StateM σ) β}
    {b : β} : runFrom s (x >>= f) = (.ok b, s') ↔
      ∃ a between, runFrom s x = (.ok a, between) ∧ runFrom between (f a) = (.ok b, s') := by
  rw [runFrom_bind]
  obtain ⟨outcome, between⟩ := runFrom s x
  cases outcome <;> simp

end

end Outcome

namespace Files.Store

variable {path : Path} {content : String} {outcome : Files.Outcome} {store store' : Store}

def replaced (path : Path) (content : String) (store : Store) : Option Files.Outcome × Store :=
  ((write .replace path content : StateM Store (Option Files.Outcome)).run store).run

theorem run_readText? (path : Path) (store : Store) :
    (Access.readText? path : StateM Store (Option String)).run store =
      pure (store.readText? path, store) := rfl

theorem run_makeDirectories (path : Path) (store : Store) :
    (Access.makeDirectories path : StateM Store Bool).run store =
      pure (makeDirectories path store) := rfl

theorem run_writeText (path : Path) (content : String) (store : Store) :
    (Access.writeText path content : StateM Store Bool).run store =
      pure (writeText path content store) := rfl

theorem replaced_eq (path : Path) (content : String) (store : Store) :
    replaced path content store =
      if store.readText? path = some content then (some .unchanged, store)
      else
        match makeDirectories ((Path.parent? path).getD "") store with
        | (false, made) => (none, made)
        | (true, made) =>
          match writeText path content made with
          | (false, after) => (none, after)
          | (true, after) => (some .written, after) := by
  unfold replaced write
  dsimp only
  rw [StateT.run_bind, run_readText?, pure_bind]
  split
  . rfl
  . unfold create
    rw [StateT.run_bind, run_makeDirectories, pure_bind]
    obtain ⟨ready, made⟩ := makeDirectories ((Path.parent? path).getD "") store
    cases ready with
    | false => rfl
    | true =>
      dsimp only
      rw [if_neg (by simp), StateT.run_bind, run_writeText, pure_bind]
      obtain ⟨done, after⟩ := writeText path content made
      cases done <;> rfl

theorem replaced_of_readText? (h : store.readText? path = some content) :
    replaced path content store = (some .unchanged, store) := by
  rw [replaced_eq, if_pos h]

theorem wrote_replaced (h : replaced path content store = (some outcome, store')) :
    ∃ location, store'.locate? path = some location ∧ Wrote location content store store' := by
  rw [replaced_eq] at h
  split at h
  -- A file with the same text counts as written, although nothing has changed.
  . next hread =>
    rw [Prod.mk.injEq] at h
    obtain ⟨location, hlocate, hnode⟩ := readText?_eq_some hread
    rw [← h.2]
    refine ⟨location, hlocate, rfl, ?_, hnode, fun _ _ _ hother => hother⟩
    rw [hnode]
    simp
  . have hkeeps := keeps_makeDirectories ((Path.parent? path).getD "") store
    split at h
    . cases h
    . next made hmade =>
      rw [hmade] at hkeeps
      split at h
      . cases h
      . next after hwrite =>
        rw [Prod.mk.injEq] at h
        rw [← h.2]
        obtain ⟨location, hlocate, hwrote⟩ := wrote_writeText hwrite
        exact ⟨location, hwrote.grows.locate? hlocate, hkeeps.wrote hwrote⟩

end Files.Store

namespace Report

section

variable {directory : Path} {store store' : Store}

theorem runFrom_writeFile (directory : Path) (file : GeneratedFile) (store : Store) :
    runFrom store (writeFile directory file) =
      match store.replaced (Path.join directory file.path) file.content with
      | (some outcome, store') => (.ok (Path.join directory file.path, outcome), store')
      | (none, store') => (.error (.unwritable (Path.join directory file.path)), store') := by
  unfold writeFile
  rw [runFrom_bind, runFrom_liftM]
  dsimp only
  rw [← Store.replaced]
  obtain ⟨outcome?, between⟩ := store.replaced (Path.join directory file.path) file.content
  cases outcome? <;> rfl

theorem wrote_writeFile {file : GeneratedFile} {outcome : Path × Files.Outcome}
    (h : runFrom store (writeFile directory file) = (.ok outcome, store')) :
    ∃ location, store'.locate? (Path.join directory file.path) = some location ∧
      Store.Wrote location file.content store store' := by
  rw [runFrom_writeFile] at h
  split at h
  . next outcome' after hreplaced =>
    rw [Prod.mk.injEq] at h
    exact Store.wrote_replaced (h.2 ▸ hreplaced)
  . rw [Prod.mk.injEq] at h
    cases h.1

def Holds (store : Store) (directory : Path) (file : GeneratedFile) : Prop :=
  store.readText? (Path.join directory file.path) = some file.content

/-- Files that lead to different places are all there after they were written one after another, and
nothing else has changed but for directories that were made. -/
theorem holds_of_mapM {files : List (String × GeneratedFile)}
    {outcomes : List (Path × Files.Outcome)}
    (hplaces : (files.map fun e => store.target (Path.join directory e.2.path)).Nodup)
    (h : runFrom store (files.mapM fun e => writeFile directory e.2) = (.ok outcomes, store')) :
    store.Grows store' ∧
      (∀ location node, location ∉ files.map (fun e => store.target (Path.join directory e.2.path)) →
        store.node? location = some node → store'.node? location = some node) ∧
      ∀ e ∈ files, Holds store' directory e.2 := by
  -- The places are those that paths lead to if nothing is in the way, which no writing changes; so
  -- they can be told apart before anything is written.
  induction files generalizing store outcomes with
  | nil =>
    rw [List.mapM_nil] at h
    cases h
    exact ⟨.refl _, fun _ _ _ hnode => hnode, fun _ he => absurd he List.not_mem_nil⟩
  | cons e files ih =>
    rw [List.mapM_cons] at h
    obtain ⟨outcome, between, hfile, h⟩ := runFrom_bind_eq_ok_iff.mp h
    obtain ⟨outcomes', after, hfiles, h⟩ := runFrom_bind_eq_ok_iff.mp h
    cases h
    obtain ⟨location, hlocate, hwrote⟩ := wrote_writeFile hfile
    have hlocation := Store.eq_target_of_locate? hlocate
    rw [hwrote.grows.target] at hlocation
    rw [List.map_cons, List.nodup_cons, ← hlocation] at hplaces
    have htargets : (files.map fun e => between.target (Path.join directory e.2.path)) =
        files.map fun e => store.target (Path.join directory e.2.path) :=
      List.map_congr_left fun e _ => hwrote.grows.target _
    obtain ⟨hgrows, hnode, hholds⟩ := ih (htargets ▸ hplaces.2) hfiles
    rw [htargets] at hnode
    refine ⟨hwrote.grows.trans hgrows, ?_, ?_⟩
    . intro other node hother hstored
      rw [List.map_cons, List.mem_cons, not_or, ← hlocation] at hother
      exact hnode other node hother.2 (hwrote.node other node hother.1 hstored)
    . rw [List.forall_mem_cons]
      refine ⟨?_, hholds⟩
      exact Store.readText?_of_node? (hgrows.locate? hlocate)
        (hnode location _ hplaces.1 hwrote.written)

theorem mapM_of_holds {files : List (String × GeneratedFile)}
    (h : ∀ e ∈ files, Holds store directory e.2) :
    runFrom store (files.mapM fun e => writeFile directory e.2) =
      (.ok (files.map fun e => (Path.join directory e.2.path, .unchanged)), store) := by
  induction files with
  | nil => rfl
  | cons e files ih =>
    rw [List.forall_mem_cons] at h
    have hfile : runFrom store (writeFile directory e.2) =
        (.ok (Path.join directory e.2.path, .unchanged), store) := by
      rw [runFrom_writeFile, Store.replaced_of_readText? h.1]
    rw [List.mapM_cons, runFrom_bind, hfile]
    dsimp only
    rw [runFrom_bind, ih h.2]
    rfl

end

end Report

namespace Batch

/--
The files of a batch are in different places below the directory that they are written to. So each of
them is there after all were written, and to write them again changes nothing.
-/
theorem wrappers_delivered {text : String} {settings : Settings} {records : List Record}
    {result : Result} (hparse : Settings.parse text = .ok settings)
    (h : Yields settings records result) :
    (∀ e ∈ result.generated, Path.isAbsolute e.2.path = false ∧
      ∀ part ∈ pieces (· == '/') e.2.path.toList,
        part ≠ [] ∧ part ≠ ['.'] ∧ part ≠ ['.', '.']) ∧
    (result.generated.map fun e => e.2.path).Nodup ∧
    ∀ (directory : Path) (store store' : Store) (outcomes : List (Path × Files.Outcome)),
      runFrom store (Report.writeFiles directory result) = (.ok outcomes, store') →
        (∀ e ∈ result.generated,
          store'.readText? (Path.join directory e.2.path) = some e.2.content) ∧
        runFrom store' (Report.writeFiles directory result) =
          (.ok (result.generated.map fun e => (Path.join directory e.2.path, .unchanged)),
            store') := by
  have hdescends : ∀ e ∈ result.generated, Path.Descends e.2.path := fun e he =>
    (h.path_of_mem hparse he).1
  refine ⟨fun e he => ⟨(hdescends e he).isAbsolute, hdescends e he⟩, h.nodup_paths hparse, ?_⟩
  intro directory store store' outcomes hrun
  have hplaces :
      (result.generated.map fun e => store.target (Path.join directory e.2.path)).Nodup := by
    have hpaths := h.nodup_paths hparse
    apply List.Nodup.map_on _ hpaths.of_map
    intro e he e' he' hplace
    exact List.inj_on_of_nodup_map hpaths he he'
      (Store.target_join_inj (hdescends e he) (hdescends e' he') hplace)
  obtain ⟨-, -, hholds⟩ := Report.holds_of_mapM hplaces hrun
  exact ⟨hholds, Report.mapM_of_holds hholds⟩

def nestedSettings : Settings :=
  { Settings.standard with
    generator := { Settings.Generator.standard with packageSuffix := "api.view" } }

def nestedText : String :=
  "[generator]\npackage_suffix = \"api.view\"\n"

theorem parse_nestedText : Settings.parse nestedText = .ok nestedSettings := by
  have htree : Toml.parse nestedText = some (.ofEntries
      [("generator", .ofEntries [("package_suffix", .text "api.view")])]) := by
    rw [Toml.parse, nestedText]
    -- the reader goes through characters, and they are not to be decoded again at each step
    simp only [String.reduceToList]
    with_unfolding_all rfl
  rw [Settings.parse, htree]
  rfl

def staleStore : Store :=
  let (_, made) := Store.makeDirectories "out/p/api/view" (Store.within ["home"])
  (Store.writeText "out/p/api/view/Item.scala" "// Source: p.Item" made).2

set_option maxRecDepth 10000 in
/-- Two classes of one name in different packages are written, one of them over an earlier file. -/
theorem wrappers_delivered_nested :
    Settings.parse nestedText = .ok nestedSettings ∧
    ∃ result store', Yields nestedSettings chainRecords result ∧
      runFrom staleStore (Report.writeFiles "out" result) =
        (.ok [("out/p/api/view/Item.scala", .written), ("out/p/api/view/Kind.scala", .written),
          ("out/q/api/view/Item.scala", .written)], store') ∧
      (∀ e ∈ result.generated,
        store'.readText? (Path.join "out" e.2.path) = some e.2.content) ∧
      runFrom store' (Report.writeFiles "out" result) =
        (.ok (result.generated.map fun e => (Path.join "out" e.2.path, .unchanged)), store') := by
  have houtcome : (outcomeOf nestedSettings chainRecords).map (fun result =>
        (runFrom staleStore (Report.writeFiles "out" result)).1.toOption) =
      .ok (some [("out/p/api/view/Item.scala", .written), ("out/p/api/view/Kind.scala", .written),
          ("out/q/api/view/Item.scala", .written)]) := by decide +kernel
  obtain ⟨result, hresult, hwritten⟩ := map_eq_ok_iff.mp houtcome
  have hyields := yields_of_outcomeOf hresult
  have hrun : runFrom staleStore (Report.writeFiles "out" result) =
      (.ok [("out/p/api/view/Item.scala", .written), ("out/p/api/view/Kind.scala", .written),
          ("out/q/api/view/Item.scala", .written)],
        (runFrom staleStore (Report.writeFiles "out" result)).2) := by
    revert hwritten
    obtain ⟨outcomes, store'⟩ := runFrom staleStore (Report.writeFiles "out" result)
    intro hwritten
    cases outcomes with
    | error e => cases hwritten
    | ok outcomes =>
      cases hwritten
      rfl
  obtain ⟨hheld, hagain⟩ :=
    (wrappers_delivered parse_nestedText hyields).2.2 "out" _ _ _ hrun
  exact ⟨parse_nestedText, result, _, hyields, hrun, hheld, hagain⟩

end Batch

end Facade
