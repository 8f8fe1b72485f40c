import Facade.Batch.Generate
import Facade.Proofs.Outcome
import Facade.Proofs.Pool.Progress

/-!
This module contains the proofs about the rounds of a generation. A round is a function of the batch
alone: every pending class gets its file or fails, those that failed leave the catalog, and those
that use one of them are pending again. In every round but the last a class fails, so nothing is
pending at the end.
-/

namespace Facade.Batch

open Host Scala Outcome

def Status.isFailed : Status → Bool
  | failed => true
  | _ => false

@[simp]
theorem Status.isFailed_pending : pending.isFailed = false := rfl

@[simp]
theorem Status.isFailed_generated (file : GeneratedFile) : (generated file).isFailed = false := rfl

@[simp]
theorem Status.isFailed_failed : failed.isFailed = true := rfl

namespace Progress

/-- What is known about a class when it has been tried. -/
def verdict (catalog : Catalog) : HostClass × Status → HostClass × Status
  | (c, .pending) =>
    match generateFile catalog c with
    | .ok file => (c, .generated file)
    | .error _ => (c, .failed)
  | entry => entry

def failure? (catalog : Catalog) : HostClass × Status → Option Failure
  | (c, .pending) =>
    match generateFile catalog c with
    | .error (.refused refusal) => some ⟨c.name, refusal⟩
    | _ => none
  | _ => none

section

variable {catalog : Catalog} {c : HostClass}

theorem verdict_of_ok {file : GeneratedFile} (h : generateFile catalog c = .ok file) :
    verdict catalog (c, .pending) = (c, .generated file) := by
  simp only [verdict, h]

theorem verdict_of_error {stop : Stop} (h : generateFile catalog c = .error stop) :
    verdict catalog (c, .pending) = (c, .failed) := by
  simp only [verdict, h]

@[simp]
theorem verdict_generated (file : GeneratedFile) :
    verdict catalog (c, .generated file) = (c, .generated file) := rfl

@[simp]
theorem verdict_failed : verdict catalog (c, .failed) = (c, .failed) := rfl

theorem failure?_of_ok {file : GeneratedFile} (h : generateFile catalog c = .ok file) :
    failure? catalog (c, .pending) = none := by
  simp only [failure?, h]

theorem failure?_of_refused {refusal : Refusal}
    (h : generateFile catalog c = .error (.refused refusal)) :
    failure? catalog (c, .pending) = some ⟨c.name, refusal⟩ := by
  simp only [failure?, h]

@[simp]
theorem failure?_generated (file : GeneratedFile) :
    failure? catalog (c, .generated file) = none := rfl

@[simp]
theorem failure?_failed : failure? catalog (c, .failed) = none := rfl

end

theorem className_of_failure? {catalog : Catalog} {entry : HostClass × Status} {failure : Failure}
    (h : failure? catalog entry = some failure) : failure.className = entry.1.name := by
  unfold failure? at h
  split at h
  . split at h
    . cases h
      rfl
    . cases h
  . cases h

def newFailures (p : Progress) : List Failure :=
  p.classes.filterMap (failure? p.catalog)

def dropped (p : Progress) : List String :=
  p.newFailures.map Failure.className

/-- The batch after a round. -/
def round (p : Progress) : Progress where
  classes := p.classes.map fun entry => reopen p.dropped (verdict p.catalog entry)
  catalog := p.dropped.foldl (fun catalog name => catalog.erase name) p.catalog
  failures := p.failures ++ p.newFailures

/-- Whether no pending class breaks the batch. -/
def IsSafe (p : Progress) : Prop :=
  ∀ c ∈ p.pendingClasses, ∀ breach, generateFile p.catalog c ≠ .error (.broken breach)

theorem mem_pendingClasses {p : Progress} {c : HostClass} :
    c ∈ p.pendingClasses ↔ (c, .pending) ∈ p.classes := by
  rw [pendingClasses, List.mem_map]
  constructor
  . rintro ⟨⟨c, status⟩, hmem, rfl⟩
    obtain ⟨hmem, hpending⟩ := List.mem_filter.mp hmem
    cases status with
    | pending => exact hmem
    | generated file => cases hpending
    | failed => cases hpending
  . intro hmem
    exact ⟨(c, .pending), List.mem_filter.mpr ⟨hmem, rfl⟩, rfl⟩

theorem attempt_cases {catalog : Catalog} {c : HostClass}
    {outcome : HostClass × Except Refusal GeneratedFile} (h : attempt catalog c = .ok outcome) :
    (∃ file, generateFile catalog c = .ok file ∧ outcome = (c, .ok file)) ∨
      ∃ refusal, generateFile catalog c = .error (.refused refusal) ∧
        outcome = (c, .error refusal) := by
  unfold attempt at h
  split at h
  . next file hfile =>
    cases h
    exact .inl ⟨file, hfile, rfl⟩
  . next refusal hrefusal =>
    cases h
    exact .inr ⟨refusal, hrefusal, rfl⟩
  . cases h

theorem settle_eq {catalog : Catalog} (entries : List (HostClass × Status))
    {outcomes : List (HostClass × Except Refusal GeneratedFile)}
    (h : List.Forall₂ (fun c outcome => attempt catalog c = .ok outcome)
      ((entries.filter (·.2.isPending)).map Prod.fst) outcomes) :
    settle entries outcomes = entries.map (verdict catalog) ∧
      failuresOf outcomes = entries.filterMap (failure? catalog) := by
  induction entries generalizing outcomes with
  | nil =>
    cases h
    exact ⟨rfl, rfl⟩
  | cons entry entries ih =>
    obtain ⟨c, status⟩ := entry
    cases status with
    | pending =>
      obtain ⟨outcome, rest, hattempt, hrest, rfl⟩ := List.forall₂_cons_left_iff.mp h
      obtain ⟨hsettle, hfailures⟩ := ih hrest
      obtain ⟨file, hfile, rfl⟩ | ⟨refusal, hrefusal, rfl⟩ := attempt_cases hattempt
      -- an attempt answers the pending entry at its place in the list
      . rw [List.map_cons, List.filterMap_cons, ← hsettle, ← hfailures, verdict_of_ok hfile,
          failure?_of_ok hfile]
        exact ⟨rfl, rfl⟩
      . rw [List.map_cons, List.filterMap_cons, ← hsettle, ← hfailures, verdict_of_error hrefusal,
          failure?_of_refused hrefusal]
        exact ⟨rfl, rfl⟩
    | generated file =>
      obtain ⟨hsettle, hfailures⟩ := ih h
      rw [List.map_cons, List.filterMap_cons, ← hsettle, ← hfailures]
      exact ⟨rfl, rfl⟩
    | failed =>
      obtain ⟨hsettle, hfailures⟩ := ih h
      rw [List.map_cons, List.filterMap_cons, ← hsettle, ← hfailures]
      exact ⟨rfl, rfl⟩

theorem advance_eq_round {p : Progress} {outcomes : List (HostClass × Except Refusal GeneratedFile)}
    (h : runAll (attempt p.catalog) p.pendingClasses = .ok outcomes) :
    p.IsSafe ∧ p.advance outcomes = p.round := by
  have hall := mapM_eq_ok_iff.mp h
  obtain ⟨hsettle, hfailures⟩ := settle_eq p.classes hall
  constructor
  . intro c hc breach hbreach
    obtain ⟨outcome, -, hattempt⟩ := exists_of_mem_left hall hc
    unfold attempt at hattempt
    rw [hbreach] at hattempt
    cases hattempt
  . unfold advance round dropped newFailures
    simp only [hsettle, hfailures, List.map_map]
    rfl

theorem step_eq_ok {workers : Nat} {p p' : Progress} (h : p.step workers = .ok p') :
    p.IsSafe ∧ p' = p.round := by
  rw [step, runPool_eq_runAll, bind_eq_ok_iff] at h
  obtain ⟨outcomes, houtcomes, h⟩ := h
  obtain ⟨hsafe, hround⟩ := advance_eq_round houtcomes
  cases h
  exact ⟨hsafe, hround⟩

/-- What every round preserves holds at the end. -/
theorem run_induction {P : Progress → Prop} (hround : ∀ p, P p → p.IsSafe → P p.round)
    {workers fuel : Nat} {p p' : Progress} (hp : P p) (h : run workers fuel p = .ok p') : P p' := by
  induction fuel generalizing p with
  | zero =>
    cases h
    exact hp
  | succ fuel ih =>
    unfold run at h
    split at h
    . cases h
      exact hp
    . obtain ⟨next, hstep, h⟩ := bind_eq_ok_iff.mp h
      obtain ⟨hsafe, rfl⟩ := step_eq_ok hstep
      exact ih (hround p hp hsafe) h

def failedNames (p : Progress) : List String :=
  (p.classes.filter (·.2.isFailed)).map (·.1.name)

@[simp]
theorem fst_reopen (dropped : List String) (entry : HostClass × Status) :
    (reopen dropped entry).1 = entry.1 := by
  unfold reopen
  split
  . split <;> rfl
  . rfl

@[simp]
theorem fst_verdict (catalog : Catalog) (entry : HostClass × Status) :
    (verdict catalog entry).1 = entry.1 := by
  unfold verdict
  split
  . split <;> rfl
  . rfl

@[simp]
theorem isFailed_reopen (dropped : List String) (entry : HostClass × Status) :
    (reopen dropped entry).2.isFailed = entry.2.isFailed := by
  unfold reopen
  split
  . split <;> rfl
  . rfl

/-- The classes that have failed after a round are those from before and those that fail in it. -/
theorem failedNames_round {p : Progress} (hsafe : p.IsSafe) :
    p.round.failedNames.Perm (p.failedNames ++ p.dropped) := by
  -- the round stays the same while the induction goes through a part of its classes
  have hentries : ∀ entries : List (HostClass × Status), entries ⊆ p.classes →
      (((entries.map fun entry => reopen p.dropped (verdict p.catalog entry)).filter
        (·.2.isFailed)).map (·.1.name)).Perm ((entries.filter (·.2.isFailed)).map (·.1.name) ++
          (entries.filterMap (failure? p.catalog)).map Failure.className) := by
    intro entries hsub
    induction entries with
    | nil => exact List.Perm.refl _
    | cons entry entries ih =>
      have hrest := ih fun _ hmem => hsub (List.mem_cons_of_mem _ hmem)
      have hmem := hsub List.mem_cons_self
      obtain ⟨c, status⟩ := entry
      rw [List.map_cons, List.filter_cons, isFailed_reopen]
      cases status with
      | pending =>
        cases hfile : generateFile p.catalog c with
        | ok file =>
          rw [verdict_of_ok hfile, List.filterMap_cons, failure?_of_ok hfile]
          simpa using hrest
        | error stop =>
          cases stop with
          | broken breach => exact absurd hfile (hsafe c (mem_pendingClasses.mpr hmem) breach)
          | refused refusal =>
            rw [verdict_of_error hfile, List.filterMap_cons, failure?_of_refused hfile]
            simpa using (hrest.cons c.name).trans List.perm_middle.symm
      | generated file =>
        rw [verdict_generated, List.filterMap_cons, failure?_generated]
        simpa using hrest
      | failed =>
        rw [verdict_failed, List.filterMap_cons, failure?_failed]
        simp only [Status.isFailed_failed, ↓reduceIte, List.map_cons, fst_reopen, List.filter_cons,
          List.cons_append]
        exact hrest.cons c.name
  exact hentries p.classes (List.Subset.refl _)

/-- The number of classes that have not failed. -/
def live (p : Progress) : Nat :=
  p.classes.length - p.failedNames.length

theorem length_failedNames_le (p : Progress) : p.failedNames.length ≤ p.classes.length := by
  rw [failedNames, List.length_map]
  exact List.length_filter_le _ _

theorem live_round_lt {p : Progress} (hsafe : p.IsSafe) (h : p.dropped ≠ []) :
    p.round.live < p.live := by
  have hlength := (failedNames_round hsafe).length_eq
  have hle := length_failedNames_le p.round
  have hclasses : p.round.classes.length = p.classes.length := List.length_map _
  have hpos := List.length_pos_of_ne_nil h
  rw [List.length_append] at hlength
  unfold live
  omega

theorem verdict_ne_pending (catalog : Catalog) (entry : HostClass × Status) :
    (verdict catalog entry).2 ≠ .pending := by
  unfold verdict
  split
  . split <;> simp
  . next hne =>
    intro hpending
    exact hne entry.1 (Prod.ext rfl hpending)

theorem reopen_nil (entry : HostClass × Status) : reopen [] entry = entry := by
  unfold reopen
  split <;> rfl

theorem pendingClasses_round_of_dropped_eq_nil {p : Progress} (h : p.dropped = []) :
    p.round.pendingClasses = [] := by
  rw [List.eq_nil_iff_forall_not_mem]
  intro c hc
  rw [mem_pendingClasses, round] at hc
  obtain ⟨entry, -, hentry⟩ := List.mem_map.mp hc
  rw [h, reopen_nil] at hentry
  exact verdict_ne_pending p.catalog entry (by rw [hentry])

/-- A round leaves nothing pending, or fewer classes that have not failed. -/
theorem round_decreases {p : Progress} (hsafe : p.IsSafe) :
    p.round.pendingClasses = [] ∨ p.round.live < p.live := by
  by_cases hdropped : p.dropped = []
  . exact .inl (pendingClasses_round_of_dropped_eq_nil hdropped)
  . exact .inr (live_round_lt hsafe hdropped)

theorem run_of_pendingClasses_eq_nil {workers fuel : Nat} {p : Progress}
    (h : p.pendingClasses = []) : run workers fuel p = .ok p := by
  cases fuel with
  | zero => rfl
  | succ fuel => simp [run, h]

theorem pendingClasses_eq_nil_of_run {workers fuel : Nat} {p p' : Progress} (hfuel : p.live < fuel)
    (h : run workers fuel p = .ok p') : p'.pendingClasses = [] := by
  induction fuel generalizing p with
  | zero => omega
  | succ fuel ih =>
    unfold run at h
    split at h
    . next hnone =>
      cases h
      exact List.isEmpty_iff.mp hnone
    . obtain ⟨next, hstep, h⟩ := bind_eq_ok_iff.mp h
      obtain ⟨hsafe, rfl⟩ := step_eq_ok hstep
      obtain hnone | hlt := round_decreases hsafe
      . rw [run_of_pendingClasses_eq_nil hnone] at h
        cases h
        exact hnone
      . exact ih (by omega) h

end Progress

end Facade.Batch
