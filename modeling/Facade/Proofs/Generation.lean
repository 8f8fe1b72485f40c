import Facade.Proofs.Outline.Compare
import Facade.Proofs.Rounds

/-!
This module contains the invariant of a generation: the catalog lacks exactly the classes that have
failed, each of these has one failure, and every file is the one that the catalog of this moment
gives. It also contains what follows for the result.
-/

namespace Facade.Batch

open Host Scala Outcome

/-- What holds of a batch that has gone through its stages. -/
structure Generator.WellFormed (g : Generator) : Prop where
  catalog : g.catalog.WellFormed
  covers : g.catalog.Covers g.classes

theorem Generator.WellFormed.nodup {g : Generator} (h : g.WellFormed) :
    (g.classes.map HostClass.name).Nodup :=
  h.covers.nodup h.catalog.ordered

namespace Progress

/-- What holds of a batch after some rounds. -/
structure Sound (g : Generator) (p : Progress) : Prop where
  classes : p.classes.map Prod.fst = g.classes
  catalog : p.catalog = g.catalog.restrict fun name => !p.failedNames.contains name
  failures : ∃ added, p.failures = g.failures ++ added ∧
    (added.map Failure.className).Perm p.failedNames
  generated : ∀ c file, (c, .generated file) ∈ p.classes → generateFile p.catalog c = .ok file

theorem sound_start (g : Generator) : g.start.Sound g := by
  have hfailed : g.start.failedNames = [] := by
    unfold failedNames Generator.start
    rw [List.map_eq_nil_iff, List.filter_eq_nil_iff]
    intro entry hentry
    obtain ⟨c, -, rfl⟩ := List.mem_map.mp hentry
    simp
  constructor
  . unfold Generator.start
    rw [List.map_map]
    exact List.map_id _
  . rw [hfailed]
    simp [Catalog.restrict, Generator.start]
  . exact ⟨[], by simp [Generator.start], by rw [hfailed]; exact List.Perm.refl _⟩
  . intro c file hmem
    obtain ⟨c', -, heq⟩ := List.mem_map.mp hmem
    cases heq

variable {g : Generator} {p : Progress}

theorem Sound.mem_classes (h : p.Sound g) {entry : HostClass × Status}
    (hentry : entry ∈ p.classes) : entry.1 ∈ g.classes := by
  rw [← h.classes]
  exact List.mem_map_of_mem hentry

theorem Sound.eq_of_name (hg : g.WellFormed) (h : p.Sound g) {entry entry' : HostClass × Status}
    (hentry : entry ∈ p.classes) (hentry' : entry' ∈ p.classes)
    (hname : entry.1.name = entry'.1.name) : entry = entry' := by
  have hnodup := hg.nodup
  rw [← h.classes, List.map_map] at hnodup
  exact List.inj_on_of_nodup_map hnodup hentry hentry' hname

theorem mem_dropped {name : String} :
    name ∈ p.dropped ↔ ∃ entry ∈ p.classes, ∃ failure, failure? p.catalog entry = some failure ∧
      entry.1.name = name := by
  simp only [dropped, newFailures, List.mem_map, List.mem_filterMap]
  constructor
  . rintro ⟨failure, ⟨entry, hentry, hfailure⟩, rfl⟩
    exact ⟨entry, hentry, failure, hfailure, (className_of_failure? hfailure).symm⟩
  . rintro ⟨entry, hentry, failure, hfailure, rfl⟩
    exact ⟨failure, ⟨entry, hentry, hfailure⟩, className_of_failure? hfailure⟩

theorem generated_of_reopen {dropped : List String} {catalog : Catalog}
    {entry : HostClass × Status} {c : HostClass} {file : GeneratedFile}
    (h : reopen dropped (verdict catalog entry) = (c, .generated file)) :
    dropped.any c.references = false ∧
      (entry = (c, .generated file) ∨
        entry = (c, .pending) ∧ generateFile catalog c = .ok file) := by
  obtain ⟨c', status⟩ := entry
  cases status with
  | pending =>
    cases hfile : generateFile catalog c' with
    | ok file' =>
      rw [verdict_of_ok hfile, reopen] at h
      split at h
      . cases h
      . next hany =>
        cases h
        exact ⟨Bool.eq_false_of_not_eq_true hany, .inr ⟨rfl, hfile⟩⟩
    | error stop =>
      rw [verdict_of_error hfile] at h
      cases h
  | generated file' =>
    rw [verdict_generated, reopen] at h
    split at h
    . cases h
    . next hany =>
      cases h
      exact ⟨Bool.eq_false_of_not_eq_true hany, .inl rfl⟩
  | failed => cases h

theorem Sound.round (hg : g.WellFormed) (h : p.Sound g) (hsafe : p.IsSafe) : p.round.Sound g := by
  have hfailed := failedNames_round hsafe
  have hcatalog : p.round.catalog = p.catalog.restrict fun name => !p.dropped.contains name :=
    Catalog.foldl_erase p.dropped p.catalog
  constructor
  . rw [Progress.round, List.map_map, ← h.classes]
    apply List.map_congr_left
    intro entry _
    simp
  . rw [hcatalog, h.catalog, Catalog.restrict_restrict]
    congr 1
    funext name
    rw [Bool.eq_iff_iff]
    simp [hfailed.mem_iff]
  . obtain ⟨added, hadded, hperm⟩ := h.failures
    refine ⟨added ++ p.newFailures, ?_, ?_⟩
    . rw [Progress.round, hadded, List.append_assoc]
    . rw [List.map_append]
      exact (hperm.append_right _).trans hfailed.symm
  . intro c file hmem
    obtain ⟨entry, hentry, hreopen⟩ := List.mem_map.mp hmem
    obtain ⟨hreferences, hcases⟩ := generated_of_reopen hreopen
    have hfile : generateFile p.catalog c = .ok file := by
      obtain rfl | ⟨-, hfile⟩ := hcases
      . exact h.generated c file hentry
      . exact hfile
    -- a class that fails is another one, as no two classes share a name
    have hown : c.name ∉ p.dropped := by
      intro hdropped
      obtain ⟨entry', hentry', failure, hfailure, hname⟩ := mem_dropped.mp hdropped
      have hfst : entry.1.name = c.name := by obtain rfl | ⟨rfl, -⟩ := hcases <;> rfl
      have heq := h.eq_of_name hg hentry hentry' (hfst.trans hname.symm)
      rw [← heq] at hfailure
      obtain rfl | ⟨rfl, -⟩ := hcases
      . cases hfailure
      . rw [failure?_of_ok hfile] at hfailure
        cases hfailure
    exact (generateFile_foldl_erase p.catalog _ hown hreferences).trans hfile

def fileOf? (entry : HostClass × Status) : Option (String × GeneratedFile) :=
  entry.2.file?.map fun file => (entry.1.name, file)

def found (p : Progress) : List (String × GeneratedFile) :=
  p.classes.filterMap fileOf?

theorem put_of_not_mem {α : Type} {key : String} {value : α} {entries : List (String × α)}
    (h : key ∉ entries.map Prod.fst) : put key value entries = entries ++ [(key, value)] := by
  induction entries with
  | nil => rfl
  | cons entry entries ih =>
    obtain ⟨k, v⟩ := entry
    rw [List.map_cons, List.mem_cons, not_or] at h
    rw [put, if_neg (Ne.symm h.1), ih h.2, List.cons_append]

theorem foldl_put {α : Type} {done entries : List (String × α)}
    (h : ((done ++ entries).map Prod.fst).Nodup) :
    entries.foldl (fun found (name, value) => put name value found) done = done ++ entries := by
  induction entries generalizing done with
  | nil => simp
  | cons entry entries ih =>
    obtain ⟨k, v⟩ := entry
    have hnew : k ∉ done.map Prod.fst := by
      rw [List.map_append, List.nodup_append] at h
      intro hmem
      exact h.2.2 k hmem k List.mem_cons_self rfl
    have happend : done ++ (k, v) :: entries = (done ++ [(k, v)]) ++ entries := by simp
    rw [happend] at h ⊢
    rw [List.foldl_cons]
    dsimp only
    rw [put_of_not_mem hnew]
    exact ih h

theorem keys_found_sublist (p : Progress) :
    (p.found.map Prod.fst).Sublist (p.classes.map (·.1.name)) := by
  have hentries : ∀ entries : List (HostClass × Status),
      ((entries.filterMap fileOf?).map Prod.fst).Sublist (entries.map (·.1.name)) := by
    intro entries
    induction entries with
    | nil => exact List.Sublist.refl _
    | cons entry entries ih =>
      obtain ⟨c, status⟩ := entry
      cases status with
      | pending => exact ih.cons c.name
      | generated file => exact ih.cons_cons c.name
      | failed => exact ih.cons c.name
  exact hentries p.classes

theorem keys_found_perm (h : p.pendingClasses = []) :
    (p.found.map Prod.fst ++ p.failedNames).Perm (p.classes.map (·.1.name)) := by
  have hentries : ∀ entries : List (HostClass × Status), (∀ c, (c, .pending) ∉ entries) →
      ((entries.filterMap fileOf?).map Prod.fst ++
        (entries.filter (·.2.isFailed)).map (·.1.name)).Perm (entries.map (·.1.name)) := by
    intro entries hpending
    induction entries with
    | nil => exact List.Perm.refl _
    | cons entry entries ih =>
      obtain ⟨c, status⟩ := entry
      have hrest := ih fun c hmem => hpending c (List.mem_cons_of_mem _ hmem)
      cases status with
      | pending => exact absurd List.mem_cons_self (hpending c)
      | generated file => exact hrest.cons c.name
      | failed => exact List.perm_middle.trans (hrest.cons c.name)
  apply hentries p.classes
  intro c hmem
  rw [← mem_pendingClasses, h] at hmem
  cases hmem

theorem Sound.names (h : p.Sound g) : p.classes.map (·.1.name) = g.classes.map HostClass.name := by
  rw [← h.classes, List.map_map]
  rfl

theorem Sound.files_eq (hg : g.WellFormed) (h : p.Sound g) : p.files = p.found := by
  unfold files
  refine (foldl_put ?_).trans (List.nil_append _)
  rw [List.nil_append]
  apply List.Nodup.sublist (keys_found_sublist p)
  rw [h.names]
  exact hg.nodup

/-- No class of a self-contained set fails in any round. -/
theorem Sound.not_dropped {S : String → Bool} (h : p.Sound g)
    (hexternal : ∀ name entry, g.catalog.get? name = some entry → g.catalog.external? name = none)
    (hS : ∀ c ∈ g.classes, S c.name = true →
      ∃ file, generateFile (g.catalog.restrict S) c = .ok file)
    (hfailed : ∀ name ∈ p.failedNames, S name = false) : ∀ name ∈ p.dropped, S name = false := by
  intro name hname
  obtain ⟨⟨c, status⟩, hentry, failure, hfailure, rfl⟩ := mem_dropped.mp hname
  cases hin : S c.name with
  | false => rfl
  | true =>
    exfalso
    obtain ⟨file, hfile⟩ := hS c (h.mem_classes hentry) hin
    -- the catalog of this moment still has the wrappers of the whole set
    have hkeep : ∀ name, S name = true → (!p.failedNames.contains name) = true := by
      intro name hname
      cases hcontains : p.failedNames.contains name with
      | false => rfl
      | true =>
        rw [hfailed name (List.contains_iff_mem.mp hcontains)] at hname
        cases hname
    have hkept := generateFile_keeps hexternal hkeep hin file hfile
    rw [← h.catalog] at hkept
    cases status with
    | pending =>
      rw [failure?_of_ok hkept] at hfailure
      cases hfailure
    | generated file => cases hfailure
    | failed => cases hfailure

end Progress

/-- What holds of the result for a batch. -/
structure Result.Sound (g : Generator) (result : Result) (added : List Failure) : Prop where
  failures : result.failures = g.failures ++ added
  perm : (result.generated.map Prod.fst ++ added.map Failure.className).Perm
    (g.classes.map HostClass.name)
  sublist : (result.generated.map Prod.fst).Sublist (g.classes.map HostClass.name)
  file : ∀ name file, (name, file) ∈ result.generated → ∃ c ∈ g.classes, c.name = name ∧
    generateFile (g.catalog.restrict fun name => !(added.map Failure.className).contains name) c =
      .ok file

namespace Generator

variable {g : Generator} {result : Result}

theorem live_start_lt (g : Generator) : g.start.live < g.classes.length + 1 := by
  have hlength : g.start.classes.length = g.classes.length := List.length_map _
  unfold Progress.live
  omega

theorem generate_cases (hg : g.WellFormed) (h : g.generate = .ok result) :
    ∃ workers p, g.start.run workers (g.classes.length + 1) = .ok p ∧ p.Sound g ∧
      p.pendingClasses = [] ∧ result.generated = p.found ∧ result.failures = p.failures := by
  obtain ⟨p, hrun, h⟩ := bind_eq_ok_iff.mp h
  cases h
  have hsound : p.Sound g :=
    Progress.run_induction (fun p hp hsafe => hp.round hg hsafe) (Progress.sound_start g) hrun
  refine ⟨_, p, hrun, hsound, ?_, hsound.files_eq hg, rfl⟩
  exact Progress.pendingClasses_eq_nil_of_run (live_start_lt g) hrun

theorem sound_of_generate (hg : g.WellFormed) (h : g.generate = .ok result) :
    ∃ added, result.Sound g added := by
  obtain ⟨workers, p, -, hsound, hpending, hgenerated, hfailures⟩ := generate_cases hg h
  obtain ⟨added, hadded, hperm⟩ := hsound.failures
  refine ⟨added, ?_, ?_, ?_, ?_⟩
  . rw [hfailures, hadded]
  . rw [hgenerated, ← hsound.names]
    exact (hperm.append_left _).trans (Progress.keys_found_perm hpending)
  . rw [hgenerated, ← hsound.names]
    exact Progress.keys_found_sublist p
  . intro name file hmem
    rw [hgenerated] at hmem
    obtain ⟨⟨c, status⟩, hentry, heq⟩ := List.mem_filterMap.mp hmem
    cases status with
    | pending => cases heq
    | failed => cases heq
    | generated file' =>
      cases heq
      refine ⟨c, hsound.mem_classes hentry, rfl, ?_⟩
      have hfile := hsound.generated c file hentry
      rw [hsound.catalog] at hfile
      rw [← hfile]
      congr 2
      funext name
      rw [Bool.eq_iff_iff]
      simp only [Bool.not_eq_true', ← Bool.not_eq_true, List.contains_iff_mem, hperm.mem_iff]

/-- Every class of a self-contained set gets its file. -/
theorem mem_generated_of_selfContained (hg : g.WellFormed)
    (hexternal : ∀ name entry, g.catalog.get? name = some entry → g.catalog.external? name = none)
    {S : String → Bool}
    (hS : ∀ c ∈ g.classes, S c.name = true →
      ∃ file, generateFile (g.catalog.restrict S) c = .ok file)
    (h : g.generate = .ok result) {c : HostClass} (hc : c ∈ g.classes)
    (hin : S c.name = true) : c.name ∈ result.generated.map Prod.fst := by
  obtain ⟨workers, p, hrun, hsound, hpending, hgenerated, -⟩ := generate_cases hg h
  have hfailed : ∀ name ∈ p.failedNames, S name = false := by
    refine (Progress.run_induction
      (P := fun p => p.Sound g ∧ ∀ name ∈ p.failedNames, S name = false)
      ?_ ⟨Progress.sound_start g, ?_⟩ hrun).2
    . rintro p ⟨hsound, hfailed⟩ hsafe
      refine ⟨hsound.round hg hsafe, ?_⟩
      intro name hname
      obtain hname | hname := List.mem_append.mp ((Progress.failedNames_round hsafe).subset hname)
      . exact hfailed name hname
      . exact hsound.not_dropped hexternal hS hfailed name hname
    . intro name hname
      obtain ⟨entry, hentry, -⟩ := List.mem_map.mp hname
      obtain ⟨hentry, hfailed⟩ := List.mem_filter.mp hentry
      obtain ⟨c, -, rfl⟩ := List.mem_map.mp hentry
      cases hfailed
  have hmem : c.name ∈ p.found.map Prod.fst ++ p.failedNames := by
    rw [(Progress.keys_found_perm hpending).mem_iff, hsound.names]
    exact List.mem_map_of_mem hc
  obtain hmem | hmem := List.mem_append.mp hmem
  . rw [hgenerated]
    exact hmem
  . rw [hfailed c.name hmem] at hin
    cases hin

end Generator

end Facade.Batch
