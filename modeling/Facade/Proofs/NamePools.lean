import Facade.Proofs.Legality

/-!
This module contains the proofs about pools of names. However a pool is used, the names that it gives
out are legal, all different and different from those that were reserved before, and each is the
first one that is left for what was asked for.
-/

namespace Facade.Scala

open Text Host Outcome EnumWrapper

namespace NamePool

/-- A variant of a name. The first is the name itself. -/
def variant (base : String) (ordinal : Nat) : String :=
  if ordinal = 1 then base else base ++ toString ordinal

def IsWritable (name : String) : Prop :=
  isReserved name = true ∨ isIdentifier name = true

/-- Whether a variant of a name is the first one that is not among some names. -/
structure IsFirstFree (taken : List String) (base : String) (ordinal : Nat) : Prop where
  positive : 1 ≤ ordinal
  le_last : ordinal ≤ lastOrdinal
  free : variant base ordinal ∉ taken
  first : ∀ before, 1 ≤ before → before < ordinal → variant base before ∈ taken

def IsExhausted (taken : List String) (base : String) : Prop :=
  ∀ ordinal, 1 ≤ ordinal → ordinal ≤ lastOrdinal → variant base ordinal ∈ taken

/-- A name without backquotes. -/
def bare (name : String) : String :=
  readName name.toList

def IsLegal (name : String) : Prop :=
  (isReserved name = false ∧ isIdentifier name = true) ∨ ∃ word ∈ reservedWords, name = escaped word

theorem variants_eq (base : String) :
    variants base = (List.range' 1 lastOrdinal).map (variant base) := by
  have hrest : ∀ n ∈ List.range' 2 (lastOrdinal - 1), variant base n = base ++ toString n := by
    intro n hn
    rw [List.mem_range'_1] at hn
    rw [variant, if_neg (by omega)]
  have hrange : List.range' 1 lastOrdinal = 1 :: List.range' 2 (lastOrdinal - 1) := rfl
  rw [hrange, List.map_cons, List.map_congr_left hrest]
  rfl

theorem safeName?_isSome_iff {name : String} :
    (safeName? name).isSome = true ↔ IsWritable name := by
  unfold safeName? IsWritable
  split
  . next h => simp [h]
  . next h =>
    split
    . next hidentifier => simp [hidentifier]
    . next hidentifier => simp [h, hidentifier]

theorem isLegal_of_safeName? {name safe : String} (h : safeName? name = some safe) :
    IsLegal safe := by
  obtain ⟨hreserved, rfl⟩ | ⟨hreserved, hidentifier, rfl⟩ := safeName?_cases h
  . exact .inr ⟨name, by simpa [isReserved] using hreserved, rfl⟩
  . exact .inl ⟨hreserved, hidentifier⟩

theorem bare_of_safeName? {name safe : String} (h : safeName? name = some safe) :
    bare safe = name :=
  readName_of_safeName? h

/-- Digits may stand behind every name, those that end in an underscore among them. -/
theorem isIdentifier_append_digits {name : String} {digits : List Char}
    (hname : Record.isIdentifier name.toList = true) (hne : digits ≠ [])
    (hdigits : ∀ c ∈ digits, c.isDigit = true) :
    isIdentifier (name ++ String.ofList digits) = true := by
  unfold isIdentifier
  rw [String.toList_append, String.toList_ofList]
  cases hcons : name.toList with
  | nil =>
    rw [hcons] at hname
    cases hname
  | cons c cs =>
    rw [hcons, Record.isIdentifier, Bool.and_eq_true] at hname
    dsimp only [List.cons_append]
    rw [Bool.and_eq_true, Bool.and_eq_true, isNameTail, List.all_append, Bool.and_eq_true]
    refine ⟨⟨hname.1, hname.2, ?_⟩, ?_⟩
    . rw [List.all_eq_true]
      intro d hd
      have hword : isWordChar d = true := by
        apply isWordChar_of_isAlphanum
        rw [Char.isAlphanum, hdigits d hd, Bool.or_true]
      rw [hword, Bool.true_or, Bool.true_or]
    -- the last character is a digit, and not the underscore that may not end a name
    . rw [← List.cons_append, List.getLast?_append_of_ne_nil _ hne, bne_iff_ne]
      intro hlast
      have hdigit := hdigits '_' (List.mem_of_getLast? hlast)
      revert hdigit
      decide

theorem isWritable_variant {base : String} (h : IsWritable base) (ordinal : Nat) :
    IsWritable (variant base ordinal) := by
  unfold variant
  split
  . exact h
  . right
    have hbase : Record.isIdentifier base.toList = true := by
      obtain hreserved | hidentifier := h
      . have hwords : ∀ word ∈ reservedWords, Record.isIdentifier word.toList = true := by
          decide
        exact hwords base (by simpa [isReserved] using hreserved)
      . exact hostIdentifier_of_isIdentifier hidentifier
    rw [Nat.toString_eq_repr, ← String.ofList_toList (s := ordinal.repr), Nat.toList_repr]
    apply isIdentifier_append_digits hbase Nat.toDigits_ne_nil
    exact fun c hc => Nat.isDigit_of_mem_toDigits (by decide) (by decide) hc

section

variable {pool : NamePool} {base : String}

theorem firstFree?_eq (h : IsWritable base) :
    pool.firstFree? (variants base) =
      ((List.range' 1 lastOrdinal).find? fun n => !pool.taken.contains (variant base n)).bind
        fun n => (safeName? (variant base n)).map fun safe => (variant base n, safe) := by
  rw [variants_eq, firstFree?, List.findSome?_map]
  generalize List.range' 1 lastOrdinal = ordinals
  induction ordinals with
  | nil => rfl
  | cons n ns ih =>
    rw [List.findSome?_cons, List.find?_cons, Function.comp_apply]
    cases htaken : pool.taken.contains (variant base n) with
    | true => exact ih
    | false =>
      obtain ⟨safe, hsafe⟩ :=
        Option.isSome_iff_exists.mp (safeName?_isSome_iff.mpr (isWritable_variant h n))
      rw [hsafe]
      simp [hsafe]

theorem find?_ordinal_eq_some {taken : List String} {ordinal : Nat} :
    (List.range' 1 lastOrdinal).find? (fun n => !taken.contains (variant base n)) = some ordinal ↔
      IsFirstFree taken base ordinal := by
  rw [List.find?_range'_eq_some, List.mem_range'_1]
  simp only [Bool.not_eq_true', List.contains_eq_mem, decide_eq_false_iff_not, Bool.not_not,
    decide_eq_true_eq]
  constructor
  . rintro ⟨hfree, hrange, hfirst⟩
    exact ⟨hrange.1, by omega, hfree, hfirst⟩
  . rintro ⟨hpositive, hlast, hfree, hfirst⟩
    exact ⟨hfree, ⟨hpositive, by omega⟩, hfirst⟩

theorem find?_ordinal_eq_none {taken : List String} :
    (List.range' 1 lastOrdinal).find? (fun n => !taken.contains (variant base n)) = none ↔
      IsExhausted taken base := by
  rw [List.find?_eq_none]
  simp only [List.mem_range'_1, Bool.not_eq_true', List.contains_eq_mem,
    decide_eq_false_iff_not, not_not]
  constructor
  . exact fun h ordinal hpositive hlast => h ordinal ⟨hpositive, by omega⟩
  . exact fun h ordinal hrange => h ordinal hrange.1 (by omega)

theorem claim_of_not_isWritable (h : ¬ IsWritable base) :
    pool.claim base = .error (.clash base .illegal) := by
  rw [← safeName?_isSome_iff, Bool.not_eq_true, Option.isSome_eq_false_iff,
    Option.isNone_iff_eq_none] at h
  rw [claim, h]

theorem claim_of_isFirstFree (h : IsWritable base) {ordinal : Nat}
    (hfirst : IsFirstFree pool.taken base ordinal) :
    ∃ name, safeName? (variant base ordinal) = some name ∧
      pool.claim base = .ok (name, pool.reserve [variant base ordinal]) := by
  obtain ⟨safe, hsafe⟩ := Option.isSome_iff_exists.mp (safeName?_isSome_iff.mpr h)
  obtain ⟨name, hname⟩ :=
    Option.isSome_iff_exists.mp (safeName?_isSome_iff.mpr (isWritable_variant h ordinal))
  refine ⟨name, hname, ?_⟩
  rw [claim, hsafe, firstFree?_eq h, find?_ordinal_eq_some.mpr hfirst, Option.bind_some, hname]
  rfl

theorem claim_of_isExhausted (h : IsWritable base) (hexhausted : IsExhausted pool.taken base) :
    pool.claim base = .error (.clash base (.exhausted (variant base lastOrdinal))) := by
  obtain ⟨safe, hsafe⟩ := Option.isSome_iff_exists.mp (safeName?_isSome_iff.mpr h)
  rw [claim, hsafe, firstFree?_eq h, find?_ordinal_eq_none.mpr hexhausted]
  rfl

/-- A claim ends in one of three ways: the name cannot be written, nothing is left for it, or it gets
the first variant that is free. -/
theorem claim_spec (pool : NamePool) (base : String) :
    (¬ IsWritable base ∧ pool.claim base = .error (.clash base .illegal)) ∨
      (IsWritable base ∧ IsExhausted pool.taken base ∧
        pool.claim base = .error (.clash base (.exhausted (variant base lastOrdinal)))) ∨
      ∃ ordinal name, IsWritable base ∧ IsFirstFree pool.taken base ordinal ∧
        safeName? (variant base ordinal) = some name ∧
          pool.claim base = .ok (name, pool.reserve [variant base ordinal]) := by
  by_cases hbase : IsWritable base
  . cases hfind : (List.range' 1 lastOrdinal).find?
        fun n => !pool.taken.contains (variant base n) with
    | none =>
      have hexhausted := find?_ordinal_eq_none.mp hfind
      exact .inr (.inl ⟨hbase, hexhausted, claim_of_isExhausted hbase hexhausted⟩)
    | some ordinal =>
      have hfirst := find?_ordinal_eq_some.mp hfind
      obtain ⟨name, hname, hclaim⟩ := claim_of_isFirstFree hbase hfirst
      exact .inr (.inr ⟨ordinal, name, hbase, hfirst, hname, hclaim⟩)
  . exact .inl ⟨hbase, claim_of_not_isWritable hbase⟩

end

/-- The names that are taken because of an event. -/
def Event.taken : Event → List String
  | reserved names => names
  | given _ name => [bare name]
  | refused _ _ => []

def Event.name? : Event → Option String
  | given _ name => some name
  | reserved _ => none
  | refused _ _ => none

/-- The names that were given out, in their order. -/
def givenNames (events : List Event) : List String :=
  events.filterMap Event.name?

theorem answer_taken (pool : NamePool) (call : Call) :
    (pool.answer call).2.taken = (pool.answer call).1.taken ++ pool.taken := by
  cases call with
  | reserve names => rfl
  | claim base =>
    rw [answer]
    obtain ⟨-, hclaim⟩ | ⟨-, -, hclaim⟩ | ⟨ordinal, name, -, -, hname, hclaim⟩ :=
      claim_spec pool base
    . rw [hclaim]
      rfl
    . rw [hclaim]
      rfl
    . rw [hclaim]
      dsimp only
      rw [Event.taken, bare_of_safeName? hname]
      rfl

theorem answer_name {pool : NamePool} {call : Call} {name : String}
    (h : (pool.answer call).1.name? = some name) :
    IsLegal name ∧ bare name ∉ pool.taken ∧ (pool.answer call).1.taken = [bare name] := by
  cases call with
  | reserve names => cases h
  | claim base =>
    rw [answer] at h ⊢
    obtain ⟨-, hclaim⟩ | ⟨-, -, hclaim⟩ | ⟨ordinal, given, -, hfirst, hname, hclaim⟩ :=
      claim_spec pool base
    . rw [hclaim] at h
      cases h
    . rw [hclaim] at h
      cases h
    . rw [hclaim] at h ⊢
      cases h
      refine ⟨isLegal_of_safeName? hname, ?_, rfl⟩
      rw [bare_of_safeName? hname]
      exact hfirst.free

theorem run_cons (pool : NamePool) (call : Call) (calls : List Call) :
    pool.run (call :: calls) =
      ((pool.answer call).1 :: ((pool.answer call).2.run calls).1,
        ((pool.answer call).2.run calls).2) := by
  rfl

theorem run_append (pool : NamePool) (calls more : List Call) :
    pool.run (calls ++ more) =
      ((pool.run calls).1 ++ ((pool.run calls).2.run more).1, ((pool.run calls).2.run more).2) := by
  induction calls generalizing pool with
  | nil => rfl
  | cons call calls ih => rw [List.cons_append, run_cons, ih, run_cons, List.cons_append]

theorem mem_taken_run {pool : NamePool} {calls : List Call} {name : String} :
    name ∈ (pool.run calls).2.taken ↔
      name ∈ pool.taken ++ (pool.run calls).1.flatMap Event.taken := by
  induction calls generalizing pool with
  | nil => simp [run]
  | cons call calls ih =>
    rw [run_cons, ih, answer_taken, List.flatMap_cons]
    simp only [List.mem_append]
    tauto

/-- The names that are given out one after the other are legal, and no two of them are the same, nor
is one the same as a name that was taken at first. -/
theorem given_run (pool : NamePool) (calls : List Call) :
    (∀ name ∈ givenNames (pool.run calls).1, IsLegal name ∧ bare name ∉ pool.taken) ∧
      ((givenNames (pool.run calls).1).map bare).Nodup := by
  induction calls generalizing pool with
  | nil => exact ⟨nofun, .nil⟩
  | cons call calls ih =>
    obtain ⟨hnames, hnodup⟩ := ih (pool.answer call).2
    rw [answer_taken] at hnames
    simp only [List.mem_append, not_or] at hnames
    rw [run_cons, givenNames]
    cases hname : (pool.answer call).1.name? with
    | none =>
      rw [List.filterMap_cons_none hname]
      exact ⟨fun name hmem => ⟨(hnames name hmem).1, (hnames name hmem).2.2⟩, hnodup⟩
    | some given =>
      obtain ⟨hlegal, hfree, htaken⟩ := answer_name hname
      rw [List.filterMap_cons_some hname, List.forall_mem_cons, List.map_cons, List.nodup_cons]
      refine ⟨⟨⟨hlegal, hfree⟩, fun name hmem => ⟨(hnames name hmem).1, (hnames name hmem).2.2⟩⟩,
        ?_, hnodup⟩
      -- what is given out later differs from this name, which is taken by then
      intro hmem
      obtain ⟨later, hlater, heq⟩ := List.mem_map.mp hmem
      refine (hnames later hlater).2.1 ?_
      rw [htaken, heq]
      exact List.mem_singleton_self _

theorem IsFirstFree.congr {taken taken' : List String} (h : ∀ name, name ∈ taken ↔ name ∈ taken')
    {base : String} {ordinal : Nat} (hfirst : IsFirstFree taken base ordinal) :
    IsFirstFree taken' base ordinal := by
  obtain ⟨hpositive, hlast, hfree, hfirst⟩ := hfirst
  refine ⟨hpositive, hlast, ?_, ?_⟩
  . rwa [← h]
  . intro before hbefore hlt
    rw [← h]
    exact hfirst before hbefore hlt

theorem IsExhausted.congr {taken taken' : List String} (h : ∀ name, name ∈ taken ↔ name ∈ taken')
    {base : String} (hexhausted : IsExhausted taken base) : IsExhausted taken' base := by
  intro ordinal hpositive hlast
  rw [← h]
  exact hexhausted ordinal hpositive hlast

theorem IsFirstFree.unique {taken : List String} {base : String} {m n : Nat}
    (hm : IsFirstFree taken base m) (hn : IsFirstFree taken base n) : m = n := by
  rcases Nat.lt_trichotomy m n with hlt | heq | hlt
  . exact absurd (hn.first m hm.positive hlt) hm.free
  . exact heq
  . exact absurd (hm.first n hn.positive hlt) hn.free

/-- How a pool answers a claim once some names are taken. -/
structure AnswersClaim (taken : List String) (pool : NamePool) (base : String) : Prop where
  given_iff : ∀ name, (pool.answer (.claim base)).1 = .given base name ↔
    IsWritable base ∧ ∃ ordinal, IsFirstFree taken base ordinal ∧
      safeName? (variant base ordinal) = some name
  given : ∀ name, (pool.answer (.claim base)).1 = .given base name →
    IsLegal name ∧ bare name ∉ taken
  refused_iff : (∃ refusal, (pool.answer (.claim base)).1 = .refused base refusal) ↔
    ¬ IsWritable base ∨ IsExhausted taken base
  refused : ∀ refusal, (pool.answer (.claim base)).1 = .refused base refusal →
    (pool.answer (.claim base)).2 = pool

theorem IsFirstFree.not_isExhausted {taken : List String} {base : String} {ordinal : Nat}
    (h : IsFirstFree taken base ordinal) : ¬ IsExhausted taken base :=
  fun hexhausted => h.free (hexhausted ordinal h.positive h.le_last)

theorem answersClaim_of_refused {taken : List String} {pool : NamePool} {base : String}
    {refusal : Refusal} (hclaim : pool.claim base = .error refusal)
    (h : ¬ IsWritable base ∨ IsExhausted taken base) : AnswersClaim taken pool base := by
  have hanswer : pool.answer (.claim base) = (.refused base refusal, pool) := by rw [answer, hclaim]
  constructor
  . intro name
    rw [hanswer]
    constructor
    . intro hgiven
      cases hgiven
    . rintro ⟨hbase, ordinal, hfirst, -⟩
      obtain hnot | hexhausted := h
      . exact absurd hbase hnot
      . exact absurd hexhausted hfirst.not_isExhausted
  . intro name hgiven
    rw [hanswer] at hgiven
    cases hgiven
  . rw [hanswer]
    exact ⟨fun _ => h, fun _ => ⟨refusal, rfl⟩⟩
  . intro _ _
    rw [hanswer]

theorem answersClaim_of_given {pool rest : NamePool} {base name : String} {ordinal : Nat}
    (hclaim : pool.claim base = .ok (name, rest)) (hbase : IsWritable base)
    (hfirst : IsFirstFree pool.taken base ordinal)
    (hname : safeName? (variant base ordinal) = some name) : AnswersClaim pool.taken pool base := by
  have hanswer : pool.answer (.claim base) = (.given base name, rest) := by rw [answer, hclaim]
  constructor
  . intro other
    rw [hanswer]
    constructor
    . intro hgiven
      cases hgiven
      exact ⟨hbase, ordinal, hfirst, hname⟩
    . rintro ⟨-, ordinal', hfirst', hother⟩
      rw [hfirst'.unique hfirst, hname] at hother
      rw [Option.some.inj hother]
  -- a name that is given can be written and is not one of those taken
  . intro other hgiven
    rw [hanswer] at hgiven
    cases hgiven
    refine ⟨isLegal_of_safeName? hname, ?_⟩
    rw [bare_of_safeName? hname]
    exact hfirst.free
  . rw [hanswer]
    constructor
    . rintro ⟨refusal, hrefused⟩
      cases hrefused
    . rintro (hnot | hexhausted)
      . exact absurd hbase hnot
      . exact absurd hexhausted hfirst.not_isExhausted
  . intro refusal hrefused
    rw [hanswer] at hrefused
    cases hrefused

theorem answersClaim (pool : NamePool) (base : String) : AnswersClaim pool.taken pool base := by
  obtain ⟨hbase, hclaim⟩ | ⟨-, hexhausted, hclaim⟩ |
    ⟨ordinal, name, hbase, hfirst, hname, hclaim⟩ := claim_spec pool base
  . exact answersClaim_of_refused hclaim (.inl hbase)
  . exact answersClaim_of_refused hclaim (.inr hexhausted)
  . exact answersClaim_of_given hclaim hbase hfirst hname

theorem AnswersClaim.congr {taken taken' : List String}
    (h : ∀ name, name ∈ taken ↔ name ∈ taken') {pool : NamePool} {base : String}
    (hanswers : AnswersClaim taken pool base) : AnswersClaim taken' pool base := by
  have hfirst : ∀ ordinal, IsFirstFree taken base ordinal ↔ IsFirstFree taken' base ordinal :=
    fun ordinal => ⟨fun hfree => hfree.congr h, fun hfree => hfree.congr fun name => (h name).symm⟩
  have hexhausted : IsExhausted taken base ↔ IsExhausted taken' base :=
    ⟨fun hall => hall.congr h, fun hall => hall.congr fun name => (h name).symm⟩
  constructor
  . intro name
    rw [hanswers.given_iff]
    simp only [hfirst]
  . intro name hname
    rw [← h]
    exact hanswers.given name hname
  . rw [hanswers.refused_iff, hexhausted]
  . exact hanswers.refused

def Gives (pool : NamePool) (names : List String) (rest : NamePool) : Prop :=
  ∃ calls, givenNames (pool.run calls).1 = names ∧ (pool.run calls).2 = rest

theorem gives_nil (pool : NamePool) : pool.Gives [] pool :=
  ⟨[], rfl, rfl⟩

theorem Gives.append {pool between rest : NamePool} {names more : List String}
    (h : pool.Gives names between) (hmore : between.Gives more rest) :
    pool.Gives (names ++ more) rest := by
  obtain ⟨calls, rfl, rfl⟩ := h
  obtain ⟨calls', rfl, rfl⟩ := hmore
  refine ⟨calls ++ calls', ?_, ?_⟩
  . rw [run_append, givenNames, List.filterMap_append]
    rfl
  . rw [run_append]

theorem gives_of_claimName {pool rest : NamePool} {base name : String}
    (h : Outline.claimName base pool = .ok (name, rest)) : pool.Gives [name] rest := by
  have hclaim := Outline.claim_of_claimName h
  refine ⟨[.claim base], ?_, ?_⟩
  . rw [run_cons, answer, hclaim]
    rfl
  . rw [run_cons, answer, hclaim]
    rfl

theorem Threads.gives {α β : Type} {Makes : NamePool → α → β → NamePool → Prop} {name : β → String}
    {pool rest : NamePool} {as : List α} {bs : List β} (h : Threads Makes pool as bs rest)
    (hmakes : ∀ pool a b rest, Makes pool a b rest → pool.Gives [name b] rest) :
    pool.Gives (bs.map name) rest := by
  induction h with
  | nil => exact gives_nil _
  | cons hfirst _ ih => exact (hmakes _ _ _ _ hfirst).append ih

theorem Gives.legal {pool rest : NamePool} {names : List String} (h : pool.Gives names rest) :
    (∀ name ∈ names, IsLegal name ∧ bare name ∉ pool.taken) ∧ names.Nodup := by
  obtain ⟨calls, rfl, -⟩ := h
  obtain ⟨hnames, hnodup⟩ := given_run pool calls
  exact ⟨hnames, hnodup.of_map⟩

end NamePool

namespace Outline

open NamePool

variable {context : Context}

theorem gives_of_getter {pool rest : NamePool} {property : String} {m : HostClass.Method}
    {g : Getter} (h : getter context pool property m = .ok (g, rest)) :
    pool.Gives [g.name] rest :=
  gives_of_claimName (getter_cases h).1

theorem gives_of_fieldGetters {pool rest : NamePool} {fs : List HostClass.Field}
    {gs : List Getter} (h : fieldGetters context pool fs = .ok (gs, rest)) :
    pool.Gives (gs.map Getter.name) rest := by
  apply (threads_fieldGetters h).gives
  rintro pool f g rest ⟨m, -, hgetter⟩
  exact gives_of_getter hgetter

theorem gives_of_computedGetters {pool rest : NamePool} {ms : List HostClass.Method}
    {gs : List Getter} (h : computedGetters context pool ms = .ok (gs, rest)) :
    pool.Gives (gs.map Getter.name) rest :=
  (threads_computedGetters h).gives fun _ _ _ _ hgetter => gives_of_getter hgetter

theorem gives_of_setters {pool : NamePool} {fs : List HostClass.Field} {ss : List Setter}
    (h : setters context pool fs = .ok ss) : ∃ rest, pool.Gives (ss.map Setter.name) rest := by
  obtain ⟨rest, hthreads⟩ := threads_setters h
  refine ⟨rest, hthreads.gives ?_⟩
  rintro pool f s rest ⟨m, -, hsetter⟩
  exact gives_of_claimName (setter_cases hsetter).1

theorem gives_of_constants {pool : NamePool} {hosts : List String} {cs : List Constant}
    (h : constants pool hosts = .ok cs) : ∃ rest, pool.Gives (cs.map Constant.name) rest := by
  obtain ⟨rest, hthreads⟩ := threads_constants h
  exact ⟨rest, hthreads.gives fun _ _ _ _ hmakes => gives_of_claimName hmakes.2⟩

/-- The names of the members that read and assign, or of the constants. -/
def memberNames (o : Outline) : List String :=
  match o.body with
  | .enumeration constants => constants.map Constant.name
  | .members _ getters setters => getters.map Getter.name ++ setters.map Setter.name

/-- A pool in which all names of members that there are already are taken gives out those of a
wrapper. -/
theorem gives_of_ofClass {catalog : Catalog} {host : HostClass} {o : Outline}
    (h : ofClass catalog host = .ok o) :
    ∃ pool rest : NamePool, pool.Gives o.memberNames rest ∧ reservedMembers ⊆ pool.taken := by
  obtain ⟨entry, name, -, -, hbody, -⟩ := ofClass_cases h
  obtain ⟨-, cs, hcs, hconstants⟩ | ⟨-, hbody⟩ := bodyOf_cases hbody
  . obtain ⟨rest, hgives⟩ := gives_of_constants hconstants
    refine ⟨NamePool.members.reserve companionMembers, rest, ?_,
      List.subset_append_of_subset_right _ (List.subset_append_left _ _)⟩
    rw [memberNames, hcs]
    exact hgives
  -- the getters and the setters of a class are named from one pool, one after the other
  . obtain ⟨ks, bound, computed, ss, between, after, -, -, hbound, hcomputed, hsetters, hbody⟩ :=
      members_cases hbody
    obtain ⟨rest, hgives⟩ := gives_of_setters hsetters
    refine ⟨.members, rest, ?_, List.subset_append_left _ _⟩
    rw [memberNames, hbody]
    dsimp only
    rw [List.map_append]
    exact ((gives_of_fieldGetters hbound).append (gives_of_computedGetters hcomputed)).append hgives

end Outline

/-- What a pool is for: names of any kind, or those of members. -/
inductive NamePool.Purpose where
  | plain
  | members

namespace NamePool

/-- The pool for a purpose. -/
def forPurpose : Purpose → NamePool
  | .plain => empty
  | .members => members

/-- However a pool was used, the names that it gave out differ, and it answers the next claim as it
should by what was reserved and given out until then. So the members of a wrapper that read and
assign, and the constants of an enumeration, have different names, none of which is that of a
member that there is already. -/
theorem names_given_out :
    (∀ purpose calls,
      (givenNames ((forPurpose purpose).run calls).1).Nodup ∧
        ∀ base, AnswersClaim
          ((forPurpose purpose).taken ++ ((forPurpose purpose).run calls).1.flatMap Event.taken)
          ((forPurpose purpose).run calls).2 base) ∧
      ∀ catalog host outline, Outline.ofClass catalog host = .ok outline →
        outline.memberNames.Nodup ∧
          ∀ name ∈ outline.memberNames, bare name ∉ reservedMembers := by
  constructor
  . intro purpose calls
    refine ⟨(given_run _ calls).2.of_map, fun base => ?_⟩
    exact (answersClaim _ base).congr fun name => mem_taken_run
  . intro catalog host outline h
    obtain ⟨pool, rest, hgives, htaken⟩ := Outline.gives_of_ofClass h
    obtain ⟨hnames, hnodup⟩ := hgives.legal
    exact ⟨hnodup, fun name hname hmem => (hnames name hname).2 (htaken hmem)⟩

def wordClass : HostClass :=
  .enumeration "p.Word" ["type", "values", "values2", "wait"]

/-- The constants of the enumeration get names of their own, though those asked for are taken. -/
theorem names_given_out_word :
    ∃ outline, Outline.ofClass (Catalog.ofClasses Settings.standard [wordClass]).1 wordClass =
        .ok outline ∧
      outline.memberNames = ["`type`", "values2", "values22", "wait2"] ∧
      outline.memberNames.Nodup ∧ ∀ name ∈ outline.memberNames, bare name ∉ reservedMembers := by
  have hnames : (Outline.ofClass (Catalog.ofClasses Settings.standard [wordClass]).1 wordClass).map
      Outline.memberNames = .ok ["`type`", "values2", "values22", "wait2"] := rfl
  obtain ⟨outline, houtline, hnames⟩ := map_eq_ok_iff.mp hnames
  exact ⟨outline, houtline, hnames, names_given_out.2 _ _ _ houtline⟩

end NamePool

end Facade.Scala
