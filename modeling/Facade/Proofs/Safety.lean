import Facade.Proofs.Binding.Bound
import Facade.Proofs.Outline.Unbroken
import Facade.Proofs.Scheduling
import Facade.Proofs.Stages

/-!
This module contains the proof that no records make a batch fail as a whole: a class that a description
comes to keeps its promises, it stays in the catalog until it fails, and so every class that is tried
gets its file or is refused.
-/

namespace Facade

open Host Outcome Scala Settings

namespace Record

variable {markers : Markers} {enums : List String}

theorem Bound.intact {className : String} {fs : List Field} {ks : List HostClass.Constructor}
    {ms : List Method} {c : HostClass} (h : Bound markers enums className fs ks ms c) :
    c.Intact := by
  constructor
  . intro g hg hgetter
    obtain ⟨f, hf, hfg⟩ := exists_of_mem_right h.fields hg
    rw [hfg.hasGetter] at hgetter
    obtain ⟨m, d, hd, -⟩ := h.getters.exists_of_isSome hf hgetter
    rw [HostClass.getterFor?, hfg.described.name]
    exact ⟨d, hd⟩
  . intro g hg hsetter
    obtain ⟨f, hf, hfg⟩ := exists_of_mem_right h.fields hg
    rw [hfg.hasSetter] at hsetter
    obtain ⟨m, d, hd, hmd⟩ := h.setters.exists_of_isSome hf hsetter
    obtain ⟨p, plain, -, -, hparameters⟩ := hmd.parameter
    rw [HostClass.setterFor?, hfg.described.name]
    exact ⟨d, _, hd, hparameters⟩

theorem intact_of_describe {r : Record} {c : HostClass} (h : describe markers enums r = .ok c) :
    c.Intact := by
  cases hclass : r.isEnum with
  | false => exact (bound_of_describe hclass h).2.2.intact
  | true =>
    -- an enumeration has no fields
    obtain ⟨-, -, h⟩ := bind_eq_ok_iff.mp h
    rw [if_pos hclass] at h
    obtain ⟨-, -, h⟩ := bind_eq_ok_iff.mp h
    cases h
    exact ⟨nofun, nofun⟩

theorem first_of_mem_describeAll {seen : List String} {records : List Record} {c : HostClass}
    (h : c ∈ (describeAll markers enums seen records).classes) :
    c.name ∉ seen ∧ ∃ r, records.find? (·.name == c.name) = some r ∧
      describe markers enums r = .ok c := by
  induction records generalizing seen with
  | nil => cases h
  | cons r rs ih =>
    have hrest : c ∈ (describeAll markers enums (r.name :: seen) rs).classes →
        c.name ∉ seen ∧ ∃ r', (r :: rs).find? (·.name == c.name) = some r' ∧
          describe markers enums r' = .ok c := by
      intro hmem
      obtain ⟨hseen, r', hfind, hdescribe⟩ := ih hmem
      rw [List.mem_cons, not_or] at hseen
      refine ⟨hseen.2, r', ?_, hdescribe⟩
      rw [List.find?_cons_of_neg (by simpa using Ne.symm hseen.1), hfind]
    -- only the first record of a name is described, so a class found later is of a name not seen
    rw [describeAll] at h
    split at h
    . exact hrest h
    . next hseen =>
      cases hdescribe : describe markers enums r with
      | error refusal =>
        rw [hdescribe] at h
        exact hrest h
      | ok described =>
        rw [hdescribe] at h
        obtain rfl | hmem := List.mem_cons.mp h
        . have hname := describe_name hdescribe
          refine ⟨?_, r, ?_, hdescribe⟩
          . rw [hname]
            simpa using hseen
          . rw [List.find?_cons_of_pos (by simp [hname])]
        . exact hrest hmem

theorem describe_of_mem_describeAll {seen : List String} {records : List Record} {c : HostClass}
    (h : c ∈ (describeAll markers enums seen records).classes) :
    ∃ r ∈ records, describe markers enums r = .ok c := by
  obtain ⟨-, r, hfind, hdescribe⟩ := first_of_mem_describeAll h
  exact ⟨r, List.mem_of_find?_eq_some hfind, hdescribe⟩

end Record

namespace Batch

open Scala

namespace Progress

variable {g : Generator} {p : Progress}

theorem Sound.exists_entry (hg : g.WellFormed) (h : p.Sound g) {c : HostClass}
    (hc : c ∈ p.pendingClasses) : ∃ entry, p.catalog.get? c.name = some entry := by
  have hpending := mem_pendingClasses.mp hc
  obtain ⟨entry, hentry⟩ := Catalog.mem_keys_iff.mp
    (hg.covers.subset (List.mem_map_of_mem (h.mem_classes hpending)))
  have hlive : c.name ∉ p.failedNames := by
    intro hfailed
    obtain ⟨other, hother, hname⟩ := List.mem_map.mp hfailed
    obtain ⟨hother, hstatus⟩ := List.mem_filter.mp hother
    rw [h.eq_of_name hg hother hpending hname] at hstatus
    cases hstatus
  refine ⟨entry, ?_⟩
  rw [h.catalog, Catalog.get?_restrict, if_pos (by simpa using hlive), hentry]

theorem Sound.isSafe (hg : g.WellFormed) (hintact : ∀ c ∈ g.classes, c.Intact) (h : p.Sound g) :
    p.IsSafe := by
  intro c hc
  obtain ⟨entry, hentry⟩ := h.exists_entry hg hc
  have hmem := h.mem_classes (mem_pendingClasses.mp hc)
  exact generateFile_unbroken hentry (hintact c hmem)

theorem step_of_isSafe (workers : Nat) (h : p.IsSafe) : p.step workers = .ok p.round := by
  have hattempt : ∀ c ∈ p.pendingClasses, ∃ outcome, attempt p.catalog c = .ok outcome := by
    intro c hc
    unfold attempt
    split
    . exact ⟨_, rfl⟩
    . exact ⟨_, rfl⟩
    . next breach hbreach => exact absurd hbreach (h c hc breach)
  obtain ⟨outcomes, houtcomes⟩ := exists_mapM_eq_ok hattempt
  rw [step, runPool_eq_runAll, runAll, houtcomes, ok_bind, (advance_eq_round houtcomes).2]
  rfl

theorem run_of_isSafe {P : Progress → Prop} (hsafe : ∀ p, P p → p.IsSafe)
    (hround : ∀ p, P p → P p.round) (workers fuel : Nat) (hp : P p) :
    ∃ p', p.run workers fuel = .ok p' := by
  induction fuel generalizing p with
  | zero => exact ⟨p, rfl⟩
  | succ fuel ih =>
    unfold run
    split
    . exact ⟨p, rfl⟩
    . -- a round without a breach is a step, whichever worker takes which class
      rw [step_of_isSafe workers (hsafe p hp)]
      exact ih (hround p hp)

end Progress

namespace Lint

theorem severity_of_repetitions {seen : List (String × Nat)} {index : Nat} {records : List Record}
    {notice : Notice} (h : notice ∈ repetitions seen index records) :
    notice.severity = .warning := by
  induction records generalizing seen index with
  | nil => cases h
  | cons r rs ih =>
    unfold repetitions at h
    split at h
    . obtain rfl | h := List.mem_cons.mp h
      . rfl
      . exact ih h
    . exact ih h

theorem severity_of_standard {settings : Settings} {records : List Record} {notice : Notice}
    (h : notice ∈ standard.flatMap fun lint => lint.check settings records) :
    notice.severity ≠ .error := by
  obtain ⟨lint, hlint, hnotice⟩ := List.mem_flatMap.mp h
  simp only [standard, List.mem_cons, List.not_mem_nil, or_false] at hlint
  obtain rfl | rfl | rfl := hlint
  . rw [severity_of_repetitions hnotice]
    decide
  . obtain ⟨r, -, rfl⟩ := List.mem_map.mp hnotice
    exact nofun
  . obtain ⟨r, -, rfl⟩ := List.mem_map.mp hnotice
    exact nofun

end Lint

namespace Pipeline

theorem runStage_of_ok {state state' : State} {stage : Stage} (h : stage.run state = .ok state') :
    ({} : Pipeline Id).runStage state stage = pure state' := by
  simp only [runStage, List.foldlM_nil, pure_bind, h]
  rfl

theorem exists_state_of_run (settings : Settings) (records : List Record) :
    ∃ state, (({} : Pipeline Id).run settings records).run = .ok state := by
  have hvalidate : ∃ notices, (Stage.validate Lint.standard).run { settings, records } =
      .ok { settings, records, notices } := by
    -- no standard lint finds an error
    refine ⟨_, if_neg ?_⟩
    simp only [State.hasAny, List.nil_append, List.any_eq_true, beq_iff_eq, not_exists, not_and]
    intro notice hnotice
    exact Lint.severity_of_standard hnotice
  obtain ⟨notices, hvalidate⟩ := hvalidate
  obtain ⟨extracted, hextract, classes, hclasses⟩ : ∃ extracted,
      Stage.extract.run { settings, records, notices } = .ok extracted ∧
        ∃ classes, extracted.classes = some classes := ⟨_, rfl, _, rfl⟩
  obtain ⟨registered, hregister⟩ : ∃ registered,
      Stage.register.run extracted = .ok registered := by
    simp only [Stage.register, hclasses]
    exact ⟨_, rfl⟩
  have hrun : ({} : Pipeline Id).run settings records = pure registered := by
    unfold run stages
    simp only [List.append_nil, List.foldlM_cons, List.foldlM_nil, runStage_of_ok hvalidate,
      runStage_of_ok hextract, runStage_of_ok hregister, pure_bind]
  exact ⟨registered, congrArg ExceptT.run hrun⟩

end Pipeline

theorem Generator.exists_ofState {settings : Settings} {records : List Record} {state : State}
    (hrun : (({} : Pipeline Id).run settings records).run = .ok state) :
    ∃ g, ofState state = .ok g := by
  obtain ⟨extraction, registered, notices, -, -, rfl⟩ :=
    Pipeline.run_cases Pipeline.isSilent_of_mem_default rfl hrun
  exact ⟨_, rfl⟩

/-- The classes of a batch that has gone through its stages keep their promises. -/
theorem Generator.intact_of_run {settings : Settings} {records : List Record} {state : State}
    {g : Generator} (hrun : (({} : Pipeline Id).run settings records).run = .ok state)
    (hg : ofState state = .ok g) : ∀ c ∈ g.classes, c.Intact := by
  obtain ⟨extraction, registered, notices, hextraction, -, rfl⟩ :=
    Pipeline.run_cases Pipeline.isSilent_of_mem_default rfl hrun
  cases hg
  intro c hc
  rw [classes_ofCatalog] at hc
  have hdescribed := (List.mem_filter.mp hc).1
  rw [hextraction] at hdescribed
  obtain ⟨r, -, hdescribe⟩ := Record.describe_of_mem_describeAll hdescribed
  exact Record.intact_of_describe hdescribe

/-- A batch that nobody observes comes to a generator, and all that its rounds come to is safe. -/
theorem Generator.exists_safe (settings : Settings) (records : List Record) :
    ∃ state g, (({} : Pipeline Id).run settings records).run = .ok state ∧
      ofState state = .ok g ∧ g.WellFormed ∧ ∀ p : Progress, p.Sound g → p.IsSafe := by
  obtain ⟨state, hrun⟩ := Pipeline.exists_state_of_run settings records
  obtain ⟨g, hg⟩ := exists_ofState hrun
  have hwell := (prepared_of_default hrun hg g.jobs g.processors).wellFormed
  exact ⟨state, g, hrun, hg, hwell, fun p hp => hp.isSafe hwell (intact_of_run hrun hg)⟩

/-- A batch that nobody observes never fails as a whole, whatever its settings and records are and
however many workers there are. In no round is there a class that breaks a promise, and whichever way
the workers come to an end, it is a result. -/
theorem batch_never_aborts (settings : Settings) (records : List Record) :
    ∃ state g, (({} : Pipeline Id).run settings records).run = .ok state ∧
      Generator.ofState state = .ok g ∧
      (∀ jobs processors, ∃ result, ({ g with jobs, processors } : Generator).generate = .ok result) ∧
      (∀ n, (Progress.round^[n] g.start).IsSafe) ∧
      ∀ workers outcome, Progress.Reaches workers g.start outcome → ∃ p, outcome = .ok p := by
  obtain ⟨state, g, hrun, hg, hwell, hsafe⟩ := Generator.exists_safe settings records
  have hround : ∀ p : Progress, p.Sound g → p.round.Sound g :=
    fun p hp => hp.round hwell (hsafe p hp)
  have hends : ∀ workers, ∃ p, g.start.run workers (g.classes.length + 1) = .ok p :=
    fun workers => Progress.run_of_isSafe hsafe hround workers _ (Progress.sound_start g)
  refine ⟨state, g, hrun, hg, ?_, ?_, ?_⟩
  . intro jobs processors
    obtain ⟨p, hp⟩ := hends (workerCount jobs processors)
    exact ⟨_, bind_eq_ok_iff.mpr ⟨p, hp, rfl⟩⟩
  . intro n
    apply hsafe
    induction n with
    | zero => exact Progress.sound_start g
    | succ n ih =>
      rw [Function.iterate_succ_apply']
      exact hround _ ih
  . -- all ways to the end come to the same, and one of them is the run
    intro workers outcome hreaches
    obtain ⟨p, hp⟩ := hends workers
    exact ⟨p, (hreaches.run_eq (.inr (Generator.live_start_lt g))).symm.trans hp⟩

end Batch

end Facade
