import Facade.Proofs.NamePools

/-!
This module contains the proofs about first claims. A name that is legal and that was neither reserved
nor claimed before is kept as it is, unless it was given out already as the variant of another name.
-/

namespace Facade.Scala.NamePool

/-- Whether a pool gives out a name as it is, or between backquotes if it is a reserved word. -/
def Keeps (pool : NamePool) (base : String) : Prop :=
  ∃ safe, safeName? base = some safe ∧ (pool.answer (.claim base)).1 = .given base safe

/-- Whether a name is legal, and has neither been reserved nor claimed in a pool that was used. -/
structure IsFresh (purpose : Purpose) (calls : List Call) (base : String) : Prop where
  writable : IsWritable base
  notForPurpose : base ∉ (forPurpose purpose).taken
  notReserved : ∀ names, .reserve names ∈ calls → base ∉ names
  notClaimed : .claim base ∉ calls

/-- Whether a name is another one with a number that tells it from those before it. -/
def IsNumbered (other base : String) : Prop :=
  ∃ ordinal, 2 ≤ ordinal ∧ ordinal ≤ lastOrdinal ∧ base = other ++ toString ordinal

/-- Whether a name was given out for another one, with a number. -/
def IsUsedUp (events : List Event) (base : String) : Prop :=
  ∃ other name, .given other name ∈ events ∧ bare name = base ∧ IsNumbered other base

theorem claim_of_free {pool : NamePool} {base safe : String} (hsafe : safeName? base = some safe)
    (hfree : base ∉ pool.taken) : pool.claim base = .ok (safe, pool.reserve [base]) := by
  have hbase : IsWritable base := by
    rw [← safeName?_isSome_iff, hsafe]
    rfl
  have hfirst : IsFirstFree pool.taken base 1 := ⟨le_rfl, by decide, hfree, by omega⟩
  obtain ⟨name, hname, hclaim⟩ := claim_of_isFirstFree hbase hfirst
  obtain rfl : name = safe := Option.some.inj (hname.symm.trans hsafe)
  exact hclaim

theorem keeps_iff_not_mem_taken {pool : NamePool} {base : String} :
    pool.Keeps base ↔ IsWritable base ∧ base ∉ pool.taken := by
  rw [← safeName?_isSome_iff, Option.isSome_iff_exists]
  constructor
  . rintro ⟨safe, hsafe, hgiven⟩
    obtain ⟨-, hfree⟩ := (answersClaim pool base).given safe hgiven
    rw [bare_of_safeName? hsafe] at hfree
    exact ⟨⟨safe, hsafe⟩, hfree⟩
  . rintro ⟨⟨safe, hsafe⟩, hfree⟩
    refine ⟨safe, hsafe, ?_⟩
    rw [answer, claim_of_free hsafe hfree]

theorem mem_taken_run_of_mem {pool : NamePool} {calls : List Call} {name : String}
    (h : name ∈ pool.taken) : name ∈ (pool.run calls).2.taken :=
  mem_taken_run.mpr (List.mem_append_left _ h)

theorem mem_taken_answer_claim {pool : NamePool} {base : String} (h : IsWritable base) :
    base ∈ (pool.answer (.claim base)).2.taken := by
  by_contra hfree
  rw [answer_taken, List.mem_append, not_or] at hfree
  -- the name was free before, so it is what the claim takes
  obtain ⟨safe, hsafe, hgiven⟩ := keeps_iff_not_mem_taken.mpr ⟨h, hfree.2⟩
  rw [hgiven, Event.taken, bare_of_safeName? hsafe] at hfree
  exact hfree.1 (List.mem_singleton_self _)

theorem mem_taken_run_of_call {pool : NamePool} {calls : List Call} {call : Call} {name : String}
    (hmem : call ∈ calls) (h : ∀ pool : NamePool, name ∈ (pool.answer call).2.taken) :
    name ∈ (pool.run calls).2.taken := by
  -- nothing is known of the pool that the call finds, so `h` is for all of them
  induction calls generalizing pool with
  | nil => cases hmem
  | cons first calls ih =>
    rw [run_cons]
    obtain rfl | hmem := List.mem_cons.mp hmem
    . exact mem_taken_run_of_mem (h pool)
    . exact ih hmem

theorem exists_answer_of_mem_run {pool : NamePool} {calls : List Call} {event : Event}
    (h : event ∈ (pool.run calls).1) :
    ∃ between : NamePool, ∃ call ∈ calls, (between.answer call).1 = event := by
  induction calls generalizing pool with
  | nil => cases h
  | cons call calls ih =>
    rw [run_cons] at h
    obtain rfl | h := List.mem_cons.mp h
    . exact ⟨pool, call, List.mem_cons_self, rfl⟩
    . obtain ⟨between, later, hlater, heq⟩ := ih h
      exact ⟨between, later, List.mem_cons_of_mem _ hlater, heq⟩

theorem reserve_mem_of_reserved_mem {pool : NamePool} {calls : List Call} {names : List String}
    (h : .reserved names ∈ (pool.run calls).1) : .reserve names ∈ calls := by
  obtain ⟨between, call, hcall, heq⟩ := exists_answer_of_mem_run h
  cases call with
  | reserve others =>
    cases heq
    exact hcall
  | claim base =>
    rw [answer] at heq
    split at heq <;> cases heq

theorem variant_of_given_mem {pool : NamePool} {calls : List Call} {base name : String}
    (h : .given base name ∈ (pool.run calls).1) :
    .claim base ∈ calls ∧
      ∃ ordinal, 1 ≤ ordinal ∧ ordinal ≤ lastOrdinal ∧ bare name = variant base ordinal := by
  obtain ⟨between, call, hcall, heq⟩ := exists_answer_of_mem_run h
  cases call with
  | reserve names => cases heq
  | claim other =>
    have hother : other = base := by
      rw [answer] at heq
      split at heq <;> cases heq
      rfl
    subst hother
    obtain ⟨-, ordinal, hfirst, hname⟩ := ((answersClaim between other).given_iff name).mp heq
    exact ⟨hcall, ordinal, hfirst.positive, hfirst.le_last, bare_of_safeName? hname⟩

theorem isNumbered_of_given_mem {pool : NamePool} {calls : List Call} {other name : String}
    (h : .given other name ∈ (pool.run calls).1) (hclaimed : .claim (bare name) ∉ calls) :
    .claim other ∈ calls ∧ IsNumbered other (bare name) := by
  obtain ⟨hother, ordinal, hpositive, hlast, hvariant⟩ := variant_of_given_mem h
  obtain rfl | hlt := Nat.eq_or_lt_of_le hpositive
  . -- the first variant is the claimed name itself
    rw [hvariant] at hclaimed
    exact absurd hother hclaimed
  . rw [variant, if_neg (by omega)] at hvariant
    exact ⟨hother, ordinal, hlt, hlast, hvariant⟩

/-- A name that is not free in the end was not fresh, or it is used up. -/
theorem isUsedUp_of_mem_taken {purpose : Purpose} {calls : List Call} {base : String}
    (hfresh : IsFresh purpose calls base) (h : base ∈ ((forPurpose purpose).run calls).2.taken) :
    IsUsedUp ((forPurpose purpose).run calls).1 base := by
  rw [mem_taken_run, List.mem_append, List.mem_flatMap] at h
  obtain h | ⟨event, hevent, h⟩ := h
  . exact absurd h hfresh.notForPurpose
  . cases event with
    | reserved names =>
      exact absurd h (hfresh.notReserved names (reserve_mem_of_reserved_mem hevent))
    | given other name =>
      obtain rfl := List.mem_singleton.mp h
      exact ⟨other, name, hevent, rfl, (isNumbered_of_given_mem hevent hfresh.notClaimed).2⟩
    | refused => cases h

theorem isFresh_of_not_mem_taken {purpose : Purpose} {calls : List Call} {base : String}
    (hbase : IsWritable base) (h : base ∉ ((forPurpose purpose).run calls).2.taken) :
    IsFresh purpose calls base where
  writable := hbase
  notForPurpose hmem := h (mem_taken_run_of_mem hmem)
  notReserved _ hreserve hmem :=
    h (mem_taken_run_of_call hreserve fun _ => List.mem_append_left _ hmem)
  notClaimed hclaim := h (mem_taken_run_of_call hclaim fun _ => mem_taken_answer_claim hbase)

/-- However a pool was used, the claim of a name gets just that name if and only if the name is fresh
and was not given out, with a number, for another one. So a fresh name is kept if it is none of the
names claimed before with a number behind it. -/
theorem keeps_iff_isFresh (purpose : Purpose) (calls : List Call) (base : String) :
    (((forPurpose purpose).run calls).2.Keeps base ↔
      IsFresh purpose calls base ∧ ¬ IsUsedUp ((forPurpose purpose).run calls).1 base) ∧
    (IsFresh purpose calls base →
      (∀ other, .claim other ∈ calls → ¬ IsNumbered other base) →
        ((forPurpose purpose).run calls).2.Keeps base) := by
  have hiff : ((forPurpose purpose).run calls).2.Keeps base ↔
      IsFresh purpose calls base ∧ ¬ IsUsedUp ((forPurpose purpose).run calls).1 base := by
    rw [keeps_iff_not_mem_taken]
    constructor
    . rintro ⟨hbase, hfree⟩
      refine ⟨isFresh_of_not_mem_taken hbase hfree, ?_⟩
      -- whatever was given out is taken
      rintro ⟨other, name, hgiven, rfl, -⟩
      exact hfree (mem_taken_run.mpr (List.mem_append_right _
        (List.mem_flatMap.mpr ⟨_, hgiven, List.mem_singleton_self _⟩)))
    . rintro ⟨hfresh, hused⟩
      exact ⟨hfresh.writable, fun htaken => hused (isUsedUp_of_mem_taken hfresh htaken)⟩
  refine ⟨hiff, fun hfresh hnumbered => hiff.mpr ⟨hfresh, ?_⟩⟩
  rintro ⟨other, name, hgiven, rfl, hused⟩
  exact hnumbered other (variant_of_given_mem hgiven).1 hused

/-- The pool of an enumeration after its first constant got a name, which is that of a member. -/
def valuesCalls : List Call :=
  [.reserve Outline.companionMembers, .claim "values"]

theorem isFresh_valuesCalls {base : String} (hbase : IsWritable base)
    (hmember : base ∉ reservedMembers) (hcompanion : base ∉ Outline.companionMembers)
    (hvalues : base ≠ "values") : IsFresh .members valuesCalls base where
  writable := hbase
  notForPurpose hmem := by
    obtain hmem | hmem := List.mem_append.mp hmem
    . exact hmember hmem
    . cases hmem
  notReserved _ hreserve := by
    obtain heq | hmem := List.mem_cons.mp hreserve
    . cases heq
      exact hcompanion
    . obtain heq := List.mem_singleton.mp hmem
      cases heq
  notClaimed hclaim := by
    obtain heq | hmem := List.mem_cons.mp hclaim
    . cases heq
    . obtain heq := List.mem_singleton.mp hmem
      cases heq
      exact hvalues rfl

/-- A constant that is called like a reserved word keeps its name, between backquotes. -/
theorem keeps_type :
    ((forPurpose .members).run valuesCalls).2.Keeps "type" := by
  refine (keeps_iff_isFresh .members valuesCalls "type").2 (isFresh_valuesCalls
    (.inl (by decide)) (by decide) (by decide) (by decide)) ?_
  intro other hclaim
  obtain heq | hmem := List.mem_cons.mp hclaim
  . cases heq
  . cases List.mem_singleton.mp hmem
    rintro ⟨ordinal, -, -, heq⟩
    have hstart := congrArg (fun name => name.toList.head?) heq
    simp at hstart

/-- A constant that is called like a member takes the name of the one behind it, which was neither
reserved nor claimed before. -/
theorem not_keeps_values2 :
    IsFresh .members valuesCalls "values2" ∧
      ¬ ((forPurpose .members).run valuesCalls).2.Keeps "values2" := by
  constructor
  . exact isFresh_valuesCalls (.inr (by decide)) (by decide) (by decide)
      (by decide)
  . rw [keeps_iff_not_mem_taken, not_and, not_not]
    intro _
    decide

end Facade.Scala.NamePool
