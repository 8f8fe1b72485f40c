import Facade.Proofs.Flaws
import Facade.Proofs.Independence
import Facade.Proofs.Outline.Unbroken

/-!
This module contains the proofs about the order in which a report lists failures. They come occasion
after occasion: records that are flawed or repeated, wrapper names that are taken, wrappers that
would hide standard types, and then every round. All of this is in the order of the records only if no
record that comes up at a later occasion stands before one of an earlier occasion.
-/

namespace Facade

open Batch Data Host Outcome Scala

section

variable {α : Type}

/-- Parts of a list that come one behind the other do not stand in it the other way round, if
nothing of them is anywhere else in it. -/
theorem not_inverted_of_append_sublist [BEq α] [LawfulBEq α] {first second items : List α}
    (h : (first ++ second).Sublist items) {a b : α} (hfirst : items.count a ≤ first.count a)
    (hsecond : items.count b ≤ second.count b) : ¬ [b, a].Sublist items := by
  obtain ⟨before, behind, rfl, hbefore, hbehind⟩ := List.append_sublist_iff.mp h
  rw [List.count_append] at hfirst hsecond
  have hca := hbefore.count_le a
  have hcb := hbehind.count_le b
  have hnot : a ∉ behind := List.count_eq_zero.mp (by omega)
  have hnot' : b ∉ before := List.count_eq_zero.mp (by omega)
  intro hpair
  obtain ⟨left, right, heq, hleft, hright⟩ := List.sublist_append_iff.mp hpair
  cases left with
  | nil =>
    rw [List.nil_append] at heq
    rw [← heq] at hright
    exact hnot (hright.subset (by simp))
  | cons c left =>
    obtain ⟨rfl, -⟩ := List.cons.inj heq
    exact hnot' (hleft.subset List.mem_cons_self)

/-- Two parts of a list that have nothing in common can be put one behind the other, if nothing of
the second stands before something of the first. -/
theorem append_sublist_of_not_inverted {first second items : List α} (hfirst : first.Sublist items)
    (hsecond : second.Sublist items) (hdisjoint : first.Disjoint second)
    (h : ∀ a ∈ first, ∀ b ∈ second, ¬ [b, a].Sublist items) :
    (first ++ second).Sublist items := by
  induction items generalizing first second with
  | nil =>
    cases hfirst
    exact hsecond
  | cons c items ih =>
    have hrest : ∀ a b : α, [b, a].Sublist items → [b, a].Sublist (c :: items) :=
      fun a b hpair => hpair.cons c
    cases hfirst with
    | cons _ hfirst =>
      cases hsecond with
      | cons _ hsecond =>
        apply (ih hfirst hsecond hdisjoint _).cons
        exact fun a ha b hb hpair => h a ha b hb (hrest a b hpair)
      | cons_cons _ hsecond =>
        -- the second part starts here, so nothing of the first is left
        cases first with
        | nil => exact hsecond.cons_cons c
        | cons a first =>
          have hpair : [c, a].Sublist (c :: items) :=
            (List.singleton_sublist.mpr (hfirst.subset List.mem_cons_self)).cons_cons c
          exact absurd hpair (h a List.mem_cons_self c List.mem_cons_self)
    | @cons_cons first _ _ hfirst =>
      cases hsecond with
      | cons _ hsecond =>
        apply List.Sublist.cons_cons
        apply ih hfirst hsecond (List.disjoint_of_disjoint_cons_left hdisjoint)
        exact fun a ha b hb hpair => h a (List.mem_cons_of_mem _ ha) b hb (hrest a b hpair)
      | cons_cons _ hsecond =>
        exact absurd List.mem_cons_self (hdisjoint List.mem_cons_self)

/-- Parts that each keep the order of a list do so one behind the other exactly if nothing of a
later part stands before something of an earlier one. -/
theorem flatten_sublist_iff [BEq α] [LawfulBEq α] {parts : List (List α)} {items : List α}
    (hparts : ∀ part ∈ parts, part.Sublist items)
    (hwhole : ∀ part ∈ parts, ∀ a ∈ part, items.count a ≤ part.count a)
    (hcount : ∀ a, parts.flatten.count a ≤ items.count a) :
    parts.flatten.Sublist items ↔
      parts.Pairwise fun earlier later =>
        ∀ a ∈ earlier, ∀ b ∈ later, ¬ [b, a].Sublist items := by
  induction parts with
  | nil => simp
  | cons part parts ih =>
    rw [List.forall_mem_cons] at hparts hwhole
    have hrest : ∀ a, parts.flatten.count a ≤ items.count a := by
      intro a
      have hall := hcount a
      rw [List.flatten_cons, List.count_append] at hall
      omega
    have hih := ih hparts.2 hwhole.2 hrest
    rw [List.pairwise_cons, ← hih, List.flatten_cons]
    constructor
    . intro h
      refine ⟨?_, (List.sublist_append_right part _).trans h⟩
      intro later hlater a ha b hb
      have hpair := ((List.sublist_flatten_of_mem hlater).append_left part).trans h
      exact not_inverted_of_append_sublist hpair (hwhole.1 a ha) (hwhole.2 later hlater b hb)
    -- nothing of this part is in a later one: it is in the whole list as often as in its parts
    . rintro ⟨h, hflatten⟩
      apply append_sublist_of_not_inverted hparts.1 hflatten
      . intro a ha hmem
        have hall := hcount a
        have hpart := hwhole.1 a ha
        have hpos := List.count_pos_iff.mpr hmem
        rw [List.flatten_cons, List.count_append] at hall
        omega
      . intro a ha b hb
        obtain ⟨later, hlater, hb⟩ := List.mem_flatten.mp hb
        exact h later hlater a ha b hb

end

/-- Whether a record is refused for repeating an earlier one. -/
def Refusal.isRepetition : Refusal → Bool
  | flawed _ .repeatedRecord => true
  | _ => false

theorem Refusal.IsOwnFlaw.isRepetition {refusal : Refusal} (h : refusal.IsOwnFlaw) :
    refusal.isRepetition = false := by
  unfold Refusal.isRepetition
  split
  . exact h.elim
  . rfl

theorem Scala.Stop.IsRefusal.isRepetition {refusal : Refusal}
    (h : (Stop.refused refusal).IsRefusal) : refusal.isRepetition = false := by
  unfold Refusal.isRepetition
  split
  . exact h.elim
  . rfl

/-- Which record a failure comes from: the class, and whether the record repeats an earlier one. -/
def Failure.origin (f : Failure) : String × Bool :=
  (f.className, f.refusal.isRepetition)

theorem Failure.origin_of_className {f : Failure} {name : String} (hname : f.className = name)
    (h : f.refusal.isRepetition = false) : f.origin = (name, false) :=
  Prod.ext hname h

namespace Record

/-- What failures from records behind those with the names `seen` have as their origins. -/
def originsFrom (seen : List String) : List Record → List (String × Bool)
  | [] => []
  | r :: rs => (r.name, seen.contains r.name) :: originsFrom (r.name :: seen) rs

def origins (records : List Record) : List (String × Bool) :=
  originsFrom [] records

/-- Whether failures are in the order of the records that they come from. -/
def InInputOrder (records : List Record) (failures : List Failure) : Prop :=
  (failures.map Failure.origin).Sublist (origins records)

instance (records : List Record) (failures : List Failure) :
    Decidable (InInputOrder records failures) :=
  inferInstanceAs (Decidable (List.Sublist _ _))

/-- Whether a record that one failure comes from stands before one that another comes from. -/
def StandsBefore (records : List Record) (first second : Failure) : Prop :=
  [first.origin, second.origin].Sublist (origins records)

instance (records : List Record) (first second : Failure) :
    Decidable (StandsBefore records first second) :=
  inferInstanceAs (Decidable (List.Sublist _ _))

theorem map_fst_originsFrom (seen : List String) (records : List Record) :
    (originsFrom seen records).map Prod.fst = records.map Record.name := by
  induction records generalizing seen with
  | nil => rfl
  | cons r rs ih => rw [originsFrom, List.map_cons, List.map_cons, ih]

theorem count_first_originsFrom (seen : List String) (records : List Record) (name : String) :
    (originsFrom seen records).count (name, false) ≤ if name ∈ seen then 0 else 1 := by
  induction records generalizing seen with
  | nil => exact Nat.zero_le _
  | cons r rs ih =>
    have hrest := ih (r.name :: seen)
    rw [originsFrom, List.count_cons]
    by_cases hseen : name ∈ seen
    -- a name seen before is never first again, whether or not it is the name of this record
    . have hmem : name ∈ r.name :: seen := List.mem_cons_of_mem _ hseen
      rw [if_pos hmem] at hrest
      have hne : ((r.name, seen.contains r.name) == (name, false)) = false := by
        rw [beq_eq_false_iff_ne]
        intro heq
        obtain ⟨rfl, hcontains⟩ := Prod.mk.inj heq
        rw [List.contains_iff_mem.mpr hseen] at hcontains
        cases hcontains
      rw [if_pos hseen, hne]
      simpa using hrest
    . rw [if_neg hseen]
      by_cases hname : name = r.name
      . rw [if_pos (by rw [hname]; exact List.mem_cons_self)] at hrest
        split <;> omega
      . have hne : ((r.name, seen.contains r.name) == (name, false)) = false := by
          rw [beq_eq_false_iff_ne]
          exact fun heq => hname (Prod.mk.inj heq).1.symm
        rw [if_neg (by simp [hname, hseen])] at hrest
        rw [hne]
        simpa using hrest

def classOrigin (c : HostClass) : String × Bool :=
  (c.name, false)

variable (markers : Settings.Markers) (enums : List String)

theorem describeAll_origins (seen : List String) (r : Record) (rs : List Record) :
    let rest := describeAll markers enums (r.name :: seen) rs
    (∃ f : Failure, f.origin = (r.name, seen.contains r.name) ∧
      describeAll markers enums seen (r :: rs) = { rest with failures := f :: rest.failures }) ∨
    (∃ c : HostClass, classOrigin c = (r.name, seen.contains r.name) ∧
      describeAll markers enums seen (r :: rs) = { rest with classes := c :: rest.classes }) := by
  intro rest
  cases hseen : seen.contains r.name with
  | true =>
    left
    refine ⟨⟨r.name, .flawed r.name .repeatedRecord⟩, rfl, ?_⟩
    rw [describeAll, if_pos hseen]
    rfl
  | false =>
    cases hdescribe : describe markers enums r with
    | ok c =>
      right
      refine ⟨c, by rw [classOrigin, describe_name hdescribe], ?_⟩
      rw [describeAll, hseen, hdescribe]
      rfl
    | error refusal =>
      left
      have hown := describe_flaws markers enums r refusal hdescribe
      refine ⟨⟨r.name, refusal⟩, Failure.origin_of_className rfl hown.isRepetition, ?_⟩
      rw [describeAll, hseen, hdescribe]
      rfl

theorem origins_perm (seen : List String) (records : List Record) :
    ((describeAll markers enums seen records).failures.map Failure.origin ++
        (describeAll markers enums seen records).classes.map classOrigin).Perm
      (originsFrom seen records) := by
  induction records generalizing seen with
  | nil => exact List.Perm.refl _
  | cons r rs ih =>
    have hrest := ih (r.name :: seen)
    obtain ⟨f, horigin, heq⟩ | ⟨c, horigin, heq⟩ := describeAll_origins markers enums seen r rs
    . rw [heq, originsFrom, List.map_cons, horigin]
      exact hrest.cons _
    . rw [heq, originsFrom, ← horigin]
      exact List.perm_middle.trans (hrest.cons _)

theorem origins_sublist (seen : List String) (records : List Record) :
    ((describeAll markers enums seen records).failures.map Failure.origin).Sublist
        (originsFrom seen records) ∧
      ((describeAll markers enums seen records).classes.map classOrigin).Sublist
        (originsFrom seen records) := by
  induction records generalizing seen with
  | nil => exact ⟨List.Sublist.refl _, List.Sublist.refl _⟩
  | cons r rs ih =>
    obtain ⟨hfailures, hclasses⟩ := ih (r.name :: seen)
    obtain ⟨f, horigin, heq⟩ | ⟨c, horigin, heq⟩ := describeAll_origins markers enums seen r rs
    . rw [heq, originsFrom, ← horigin]
      exact ⟨hfailures.cons_cons _, hclasses.cons _⟩
    . rw [heq, originsFrom, ← horigin]
      exact ⟨hfailures.cons _, hclasses.cons_cons _⟩

end Record

namespace Catalog

theorem Draft.origins_foldl (settings : Settings) (classes : List HostClass) (draft : Draft) :
    ∃ added, (classes.foldl (Draft.add settings) draft).failures = draft.failures ++ added ∧
      (added.map Failure.origin).Sublist (classes.map Record.classOrigin) := by
  induction classes generalizing draft with
  | nil => exact ⟨[], (List.append_nil _).symm, List.Sublist.refl _⟩
  | cons c classes ih =>
    obtain ⟨added, hadded, hsub⟩ := ih (draft.add settings c)
    rw [List.foldl_cons, hadded]
    unfold Draft.add
    dsimp only
    split
    . refine ⟨_ :: added, List.append_assoc _ _ _, ?_⟩
      exact hsub.cons_cons _
    . exact ⟨added, rfl, hsub.cons _⟩

theorem origins_ofClasses (settings : Settings) (classes : List HostClass) :
    ((ofClasses settings classes).2.map Failure.origin).Sublist
      (classes.map Record.classOrigin) := by
  obtain ⟨added, hadded, hsub⟩ :=
    Draft.origins_foldl settings classes ⟨⟨[], settings.externalTypes⟩, [], []⟩
  have heq : (ofClasses settings classes).2 = added := hadded
  rw [heq]
  exact hsub

theorem isRepetition_of_rejectNames {test : String → Bool} {catalog : Catalog} {f : Failure}
    (h : f ∈ (catalog.rejectNames test).2) : f.refusal.isRepetition = false := by
  obtain ⟨e, -, rfl⟩ := List.mem_map.mp h
  rfl

theorem WellFormed.ordered_rejectNames {catalog : Catalog} (h : catalog.WellFormed)
    (test : String → Bool) :
    ((catalog.rejectNames test).2.map Failure.className).Pairwise (· < ·) := by
  rw [h.classNames_rejectNames test, List.pairwise_map]
  exact h.ordered.sublist List.filter_sublist

end Catalog

namespace Batch

namespace Progress

/-- The failures of every round, if there are no more rounds than `fuel`. -/
def rounds : (fuel : Nat) → Progress → List (List Failure)
  | 0, _ => []
  | fuel + 1, p => if p.pendingClasses.isEmpty then [] else p.newFailures :: rounds fuel p.round

/-- The failures at the end are those from before, and then those of every round. -/
theorem failures_of_run {workers fuel : Nat} {p p' : Progress} (h : run workers fuel p = .ok p') :
    p'.failures = p.failures ++ (rounds fuel p).flatten := by
  induction fuel generalizing p with
  | zero =>
    cases h
    exact (List.append_nil _).symm
  | succ fuel ih =>
    unfold run at h
    unfold rounds
    split at h
    . next hnone =>
      cases h
      rw [if_pos hnone]
      exact (List.append_nil _).symm
    . next hsome =>
      obtain ⟨next, hstep, h⟩ := bind_eq_ok_iff.mp h
      obtain ⟨-, rfl⟩ := step_eq_ok hstep
      rw [if_neg hsome, List.flatten_cons, ← List.append_assoc]
      exact ih h

variable {g : Generator} {p : Progress}

theorem Sound.origin_of_failure? (hg : g.WellFormed) (hintact : ∀ c ∈ g.classes, c.Intact)
    (h : p.Sound g) {entry : HostClass × Status} (hentry : entry ∈ p.classes) {f : Failure}
    (hf : failure? p.catalog entry = some f) : f.origin = Record.classOrigin entry.1 := by
  apply Failure.origin_of_className (className_of_failure? hf)
  obtain ⟨c, status⟩ := entry
  cases status with
  | generated file => cases hf
  | failed => cases hf
  | pending =>
    obtain ⟨wrapper, hwrapper⟩ := h.exists_entry hg (mem_pendingClasses.mpr hentry)
    have hrefuses := generateFile_refuses hwrapper (hintact c (h.mem_classes hentry))
    unfold failure? at hf
    dsimp only at hf
    split at hf
    . next refusal hrefusal =>
      cases hf
      exact (hrefuses _ hrefusal).isRepetition
    . cases hf

theorem Sound.origins_newFailures (hg : g.WellFormed) (hintact : ∀ c ∈ g.classes, c.Intact)
    (h : p.Sound g) :
    (p.newFailures.map Failure.origin).Sublist (g.classes.map Record.classOrigin) := by
  have hentries : ∀ entries : List (HostClass × Status), entries ⊆ p.classes →
      ((entries.filterMap (failure? p.catalog)).map Failure.origin).Sublist
        (entries.map fun entry => Record.classOrigin entry.1) := by
    intro entries hsub
    induction entries with
    | nil => exact List.Sublist.refl _
    | cons entry entries ih =>
      obtain ⟨hentry, hsub⟩ := List.cons_subset.mp hsub
      have hrest := ih hsub
      rw [List.filterMap_cons]
      split
      . exact hrest.cons _
      . next f hf =>
        rw [List.map_cons, List.map_cons, h.origin_of_failure? hg hintact hentry hf]
        exact hrest.cons_cons _
  have hclasses : g.classes.map Record.classOrigin =
      p.classes.map fun entry => Record.classOrigin entry.1 := by
    rw [← h.classes, List.map_map]
    rfl
  rw [hclasses]
  exact hentries p.classes (List.Subset.refl _)

theorem Sound.origins_rounds (hg : g.WellFormed) (hintact : ∀ c ∈ g.classes, c.Intact)
    {fuel : Nat} (h : p.Sound g) : ∀ failures ∈ rounds fuel p,
      (failures.map Failure.origin).Sublist (g.classes.map Record.classOrigin) := by
  induction fuel generalizing p with
  | zero => exact nofun
  | succ fuel ih =>
    unfold rounds
    split
    . exact nofun
    . rw [List.forall_mem_cons]
      exact ⟨h.origins_newFailures hg hintact, ih (h.round hg (h.isSafe hg hintact))⟩

end Progress

end Batch

namespace Report

open Batch Record

/-- The occasions at which records of a batch fail, one after another. -/
structure Occasions where
  /-- Records that are flawed, or that repeat others. -/
  flawed : List Failure
  /-- Classes whose wrapper names are taken. -/
  taken : List Failure
  /-- Classes whose wrappers would hide types that wrappers use. -/
  shadowing : List Failure
  /-- Classes that are refused when they are tried, round by round. -/
  rounds : List (List Failure)

def Occasions.all (o : Occasions) : List (List Failure) :=
  o.flawed :: o.taken :: o.shadowing :: o.rounds

/-- What happens to the records of a batch at every occasion. -/
def occasions (settings : Settings) (records : List Record) : Occasions :=
  let extraction := Record.extract settings.markers records
  let registered := Catalog.ofClasses settings extraction.classes
  let g := Generator.ofRecords settings (enumNames records) records
  {
    flawed := extraction.failures
    taken := registered.2
    shadowing := (registered.1.rejectNames isUnavailable).2
    rounds := g.start.rounds (g.classes.length + 1)
  }

variable {settings : Settings} {records : List Record}

theorem failures_eq_flatten {jobs processors : Nat} {result : Result}
    (h : ((Generator.ofRecords settings (enumNames records) records).withWorkers jobs
      processors).generate = .ok result) :
    result.failures = (occasions settings records).all.flatten := by
  obtain ⟨p, hrun, h⟩ := bind_eq_ok_iff.mp h
  cases h
  have hfailures := Progress.failures_of_run hrun
  dsimp only
  rw [hfailures]
  simp only [Occasions.all, List.flatten_cons, ← List.append_assoc]
  rfl

theorem isRepetition_of_origins {f : Failure} {failures : List Failure} {classes : List HostClass}
    (h : (failures.map Failure.origin).Sublist (classes.map classOrigin)) (hf : f ∈ failures) :
    f.refusal.isRepetition = false := by
  obtain ⟨c, -, hc⟩ := List.mem_map.mp (h.subset (List.mem_map_of_mem hf))
  exact (congrArg Prod.snd hc).symm

theorem origins_ofRecords (settings : Settings) (enums : List String) (records : List Record) :
    ((Generator.ofRecords settings enums records).classes.map classOrigin).Sublist
      (origins records) := by
  have hsub : (Generator.ofRecords settings enums records).classes.Sublist
      (describeAll settings.markers enums [] records).classes := by
    unfold Generator.ofRecords Generator.ofExtraction
    dsimp only
    rw [Generator.classes_ofCatalog]
    exact List.filter_sublist
  exact (hsub.map classOrigin).trans (origins_sublist _ _ [] records).2

theorem flawed_inInputOrder (settings : Settings) (records : List Record) :
    InInputOrder records (occasions settings records).flawed :=
  (origins_sublist _ _ [] records).1

theorem origins_taken (settings : Settings) (records : List Record) :
    ((occasions settings records).taken.map Failure.origin).Sublist
      ((extract settings.markers records).classes.map classOrigin) :=
  Catalog.origins_ofClasses settings _

theorem taken_inInputOrder (settings : Settings) (records : List Record) :
    InInputOrder records (occasions settings records).taken :=
  (origins_taken settings records).trans (origins_sublist _ _ [] records).2

theorem origins_rounds (settings : Settings) (records : List Record) :
    ∀ failures ∈ (occasions settings records).rounds, (failures.map Failure.origin).Sublist
      ((Generator.ofRecords settings (enumNames records) records).classes.map classOrigin) :=
  (Progress.sound_start _).origins_rounds (Generator.wellFormed_ofRecords _ _ _)
    fun _ hc => Generator.intact_ofRecords hc

theorem rounds_inInputOrder (settings : Settings) (records : List Record) :
    ∀ failures ∈ (occasions settings records).rounds, InInputOrder records failures :=
  fun failures h => (origins_rounds settings records failures h).trans (origins_ofRecords _ _ _)

theorem ordered_shadowing (settings : Settings) (records : List Record) :
    ((occasions settings records).shadowing.map Failure.className).Pairwise (· < ·) := by
  obtain ⟨draft, hdraft, heq⟩ := Catalog.ofClasses_sound settings
    (describeAll_nodup settings.markers (enumNames records) [] records).1
  have hregistered : (Catalog.ofClasses settings
      (extract settings.markers records).classes).1.WellFormed := by
    have hfst := congrArg Prod.fst heq
    exact hfst ▸ hdraft.wellFormed
  exact hregistered.ordered_rejectNames isUnavailable

theorem isRepetition_of_later {failures : List Failure}
    (h : failures ∈ (occasions settings records).taken ::
      (occasions settings records).shadowing :: (occasions settings records).rounds)
    {f : Failure} (hf : f ∈ failures) : f.refusal.isRepetition = false := by
  obtain rfl | h := List.mem_cons.mp h
  . exact isRepetition_of_origins (origins_taken settings records) hf
  . obtain rfl | h := List.mem_cons.mp h
    . exact Catalog.isRepetition_of_rejectNames hf
    . exact isRepetition_of_origins (origins_rounds settings records failures h) hf

theorem count_repetition_flawed (settings : Settings) (records : List Record) (name : String) :
    ((occasions settings records).flawed.map Failure.origin).count (name, true) =
      (origins records).count (name, true) := by
  have hperm := (origins_perm settings.markers (enumNames records) [] records).count_eq (name, true)
  have hclasses : ((describeAll settings.markers (enumNames records) [] records).classes.map
      classOrigin).count (name, true) = 0 := by
    rw [List.count_eq_zero]
    intro hmem
    obtain ⟨c, -, hc⟩ := List.mem_map.mp hmem
    cases hc
  rw [List.count_append, hclasses] at hperm
  exact hperm

theorem count_origins_le {failures : List Failure}
    (h : failures ∈ (occasions settings records).all) {f : Failure} (hf : f ∈ failures) :
    (origins records).count f.origin ≤ (failures.map Failure.origin).count f.origin := by
  have hpos : 0 < (failures.map Failure.origin).count f.origin :=
    List.count_pos_iff.mpr (List.mem_map_of_mem hf)
  have hfirst := count_first_originsFrom [] records f.className
  obtain ⟨className, refusal⟩ := f
  cases hrepetition : refusal.isRepetition with
  | false =>
    have horigin : Failure.origin ⟨className, refusal⟩ = (className, false) :=
      Failure.origin_of_className rfl hrepetition
    rw [horigin] at hpos ⊢
    exact hfirst.trans hpos
  -- only a flawed record is refused for a repetition, and only where it repeats
  | true =>
    obtain rfl | h := List.mem_cons.mp h
    . have horigin : Failure.origin ⟨className, refusal⟩ = (className, true) :=
        Prod.ext rfl hrepetition
      rw [horigin, count_repetition_flawed]
    . have hlater : refusal.isRepetition = false := isRepetition_of_later h hf
      rw [hrepetition] at hlater
      cases hlater

theorem count_map_fst (items : List (String × Bool)) (name : String) :
    (items.map Prod.fst).count name = items.count (name, true) + items.count (name, false) := by
  induction items with
  | nil => rfl
  | cons item items ih =>
    obtain ⟨name', isRepetition⟩ := item
    simp only [List.map_cons, List.count_cons, ih, beq_iff_eq, Prod.mk.injEq]
    by_cases hname : name' = name
    . cases isRepetition <;> simp [hname] <;> omega
    . simp [hname]

/-- No record fails twice. -/
theorem count_flatten_le (settings : Settings) (records : List Record) (origin : String × Bool) :
    ((occasions settings records).all.flatten.map Failure.origin).count origin ≤
      (origins records).count origin := by
  obtain ⟨name, isRepetition⟩ := origin
  have hrepetition : ((occasions settings records).all.flatten.map Failure.origin).count
      (name, true) = (origins records).count (name, true) := by
    have hlater : (((occasions settings records).taken :: (occasions settings records).shadowing ::
        (occasions settings records).rounds).flatten.map Failure.origin).count (name, true) = 0 := by
      rw [List.count_eq_zero]
      intro hmem
      obtain ⟨f, hf, horigin⟩ := List.mem_map.mp hmem
      obtain ⟨failures, hfailures, hf⟩ := List.mem_flatten.mp hf
      have htrue : f.refusal.isRepetition = true := congrArg Prod.snd horigin
      rw [isRepetition_of_later hfailures hf] at htrue
      cases htrue
    rw [Occasions.all, List.flatten_cons, List.map_append, List.count_append, hlater,
      count_repetition_flawed, Nat.add_zero]
  cases isRepetition with
  | true => exact hrepetition.le
  | false =>
    -- a class has as many failures as records at most, and its repeated records have theirs
    obtain ⟨result, hyields⟩ := exists_yields settings records
    obtain ⟨jobs, processors, hresult⟩ := hyields.cases
    have haccounts := hyields.accounts.count_eq name
    rw [List.count_append, failures_eq_flatten hresult] at haccounts
    have hfailures := count_map_fst
      ((occasions settings records).all.flatten.map Failure.origin) name
    have hrecords := count_map_fst (origins records) name
    rw [List.map_map] at hfailures
    rw [origins, map_fst_originsFrom, ← origins] at hrecords
    have hname : Prod.fst ∘ Failure.origin = Failure.className := rfl
    rw [hname] at hfailures
    omega

/-- Failures are in the order of the records exactly if those of one occasion are and no record that
fails later stands before one that fails earlier. -/
theorem inInputOrder_flatten_iff (settings : Settings) (records : List Record) :
    InInputOrder records (occasions settings records).all.flatten ↔
      InInputOrder records (occasions settings records).shadowing ∧
        (occasions settings records).all.Pairwise fun earlier later =>
          ∀ f ∈ earlier, ∀ g ∈ later, ¬ StandsBefore records g f := by
  have hsub : (occasions settings records).shadowing.Sublist
      (occasions settings records).all.flatten :=
    List.sublist_flatten_of_mem (by simp [Occasions.all])
  have hiff : InInputOrder records (occasions settings records).shadowing →
      (InInputOrder records (occasions settings records).all.flatten ↔
        (occasions settings records).all.Pairwise fun earlier later =>
          ∀ f ∈ earlier, ∀ g ∈ later, ¬ StandsBefore records g f) := by
    intro hshadowing
    -- each part is in input order by itself, and a part has a name as often as the records have it
    have hparts : ∀ part ∈ (occasions settings records).all.map (List.map Failure.origin),
        part.Sublist (origins records) := by
      simp only [Occasions.all, List.forall_mem_map, List.forall_mem_cons]
      exact ⟨flawed_inInputOrder settings records, taken_inInputOrder settings records, hshadowing,
        rounds_inInputOrder settings records⟩
    have hwhole : ∀ part ∈ (occasions settings records).all.map (List.map Failure.origin),
        ∀ origin ∈ part, (origins records).count origin ≤ part.count origin := by
      simp only [List.forall_mem_map]
      exact fun failures hfailures f hf => count_origins_le hfailures hf
    have hcount := count_flatten_le settings records
    rw [List.map_flatten] at hcount
    rw [InInputOrder, List.map_flatten, flatten_sublist_iff hparts hwhole hcount,
      List.pairwise_map]
    simp only [List.forall_mem_map]
    rfl
  constructor
  . intro h
    have hshadowing : InInputOrder records (occasions settings records).shadowing :=
      (hsub.map Failure.origin).trans h
    exact ⟨hshadowing, (hiff hshadowing).mp h⟩
  . rintro ⟨hshadowing, h⟩
    exact (hiff hshadowing).mpr h

section

variable {m : Type → Type} [Monad m] [LawfulMonad m] [MonadAttach m] [LawfulMonadAttach m]
variable [Files.Access m]

theorem failures_of_generateBatch {options : Options} {report : Generation}
    (h : MonadAttach.CanReturn
      (generateBatch settings records options : ExceptT Trouble m Generation) report) :
    report.failures = (occasions settings records).all.flatten := by
  obtain ⟨p, state, g, result, hsilent, hadded, hrun, hg, hresult, -, -, hfailures⟩ :=
    generateBatch_run h
  have hrecords := Generator.eq_ofRecords_of_run hsilent hadded hrun hg
  have hworkers : g.withJobs options.jobs =
      g.withWorkers (options.jobs.getD g.jobs) g.processors := rfl
  rw [hworkers, hrecords] at hresult
  rw [hfailures, failures_eq_flatten hresult]

end

def orderlyRecords : List Record := [
  enumRecord "p.Bad" ["1"],
  readerRecord "p.Item" [],
  readerRecord "p.Item" [],
  readerRecord "p.item" [],
  readerRecord "p.Option" [],
  readerRecord "p.Third" [("getMissing", "q.Missing")],
  readerRecord "p.Second" [("getThird", "p.Third")]
]

/-- Records that fail at an earlier occasion the later they come. -/
def lateRecords : List Record :=
  [readerRecord "p.Right" [], readerRecord "p.Left" [], enumRecord "p.Bad" ["1"]]

end Report

end Facade
