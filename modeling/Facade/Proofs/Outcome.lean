import Mathlib.Data.List.Forall2

/-!
This module contains the lemmas that take computations which may fail apart: into steps that all
succeed, or a first one that fails. Where such computations are done for the items of a list, they
relate two lists, and so the module also contains what is needed about related lists.
-/

namespace Facade.Outcome

variable {ε α β : Type}

@[simp]
theorem pure_eq_ok (a : α) : (pure a : Except ε α) = .ok a := rfl

@[simp]
theorem ok_bind (a : α) (f : α → Except ε β) : (Except.ok a >>= f) = f a := rfl

@[simp]
theorem error_bind (e : ε) (f : α → Except ε β) : (Except.error e >>= f) = .error e := rfl

theorem bind_eq_ok_iff {x : Except ε α} {f : α → Except ε β} {b : β} :
    (x >>= f) = .ok b ↔ ∃ a, x = .ok a ∧ f a = .ok b := by
  cases x with
  | error e => exact ⟨nofun, fun ⟨_, h, _⟩ => nomatch h⟩
  | ok a =>
    constructor
    . intro h
      exact ⟨a, rfl, h⟩
    . rintro ⟨_, h, hf⟩
      cases h
      exact hf

theorem bind_eq_error_iff {x : Except ε α} {f : α → Except ε β} {e : ε} :
    (x >>= f) = .error e ↔ x = .error e ∨ ∃ a, x = .ok a ∧ f a = .error e := by
  cases x with
  | error e' =>
    constructor
    . intro h
      cases h
      exact .inl rfl
    . rintro (h | ⟨_, h, _⟩)
      . cases h
        rfl
      . cases h
  | ok a =>
    constructor
    . intro h
      exact .inr ⟨a, rfl, h⟩
    . rintro (h | ⟨_, h, hf⟩)
      . cases h
      . cases h
        exact hf

theorem map_eq_ok_iff {x : Except ε α} {f : α → β} {b : β} :
    x.map f = .ok b ↔ ∃ a, x = .ok a ∧ f a = b := by
  cases x with
  | error e => exact ⟨nofun, fun ⟨_, h, _⟩ => nomatch h⟩
  | ok a =>
    constructor
    . intro h
      exact ⟨a, rfl, Except.ok.inj h⟩
    . rintro ⟨_, h, rfl⟩
      cases h
      rfl

theorem toOption_eq_some_iff {x : Except ε α} {a : α} : x.toOption = some a ↔ x = .ok a := by
  cases x with
  | error e => exact ⟨nofun, nofun⟩
  | ok a => exact ⟨fun h => congrArg _ (Option.some.inj h), fun h => congrArg _ (Except.ok.inj h)⟩

theorem mapError_eq_ok_iff {ε' : Type} {x : Except ε α} {f : ε → ε'} {a : α} :
    x.mapError f = .ok a ↔ x = .ok a := by
  cases x with
  | error e => exact ⟨nofun, nofun⟩
  | ok a => exact ⟨fun h => congrArg _ (Except.ok.inj h), fun h => congrArg _ (Except.ok.inj h)⟩

theorem exists_of_mem_left {R : α → β → Prop} {as : List α} {bs : List β} (h : List.Forall₂ R as bs)
    {a : α} (ha : a ∈ as) : ∃ b ∈ bs, R a b := by
  induction h with
  | nil => cases ha
  | cons hab _ ih =>
    cases ha with
    | head => exact ⟨_, List.mem_cons_self, hab⟩
    | tail _ ha =>
      obtain ⟨b, hb, hab⟩ := ih ha
      exact ⟨b, List.mem_cons_of_mem _ hb, hab⟩

theorem exists_of_mem_right {R : α → β → Prop} {as : List α} {bs : List β}
    (h : List.Forall₂ R as bs) {b : β} (hb : b ∈ bs) : ∃ a ∈ as, R a b :=
  exists_of_mem_left h.flip hb

theorem rel_find? {R : α → β → Prop} {as : List α} {bs : List β} {p : α → Bool}
    {q : β → Bool} (h : List.Forall₂ R as bs) (hpq : ∀ a b, R a b → p a = q b) :
    Option.Rel R (as.find? p) (bs.find? q) := by
  induction h with
  | nil => exact .none
  | @cons a b as bs hab _ ih =>
    rw [List.find?_cons, List.find?_cons, ← hpq a b hab]
    cases p a with
    | true => exact .some hab
    | false => exact ih

theorem map_eq_of_rel {γ : Type} {R : α → β → Prop} {f : α → γ} {g : β → γ} {a : Option α}
    {b : Option β} (h : Option.Rel R a b) (hfg : ∀ a b, R a b → g b = f a) : b.map g = a.map f := by
  cases h with
  | some hab => exact congrArg some (hfg _ _ hab)
  | none => rfl

theorem forall₂_comp {γ : Type} {R : α → β → Prop} {S : β → γ → Prop} {as : List α}
    {bs : List β} {cs : List γ} (h : List.Forall₂ R as bs) (h' : List.Forall₂ S bs cs) :
    List.Forall₂ (fun a c => ∃ b, R a b ∧ S b c) as cs := by
  induction h generalizing cs with
  | nil =>
    cases h'
    exact .nil
  | cons hab _ ih =>
    cases h' with
    | cons hbc h' => exact .cons ⟨_, hab, hbc⟩ (ih h')

theorem map_eq_of_forall₂ {γ : Type} {R : α → β → Prop} {f : α → γ} {g : β → γ} {as : List α}
    {bs : List β} (h : List.Forall₂ R as bs) (hfg : ∀ a b, R a b → g b = f a) :
    bs.map g = as.map f := by
  rw [eq_comm, ← List.forall₂_eq_eq_eq, List.forall₂_map_left_iff, List.forall₂_map_right_iff]
  exact h.imp fun a b hab => (hfg a b hab).symm

theorem filterMap_eq_of_forall₂ {γ : Type} {R : α → β → Prop} {f : α → Option γ}
    {g : β → Option γ} {as : List α} {bs : List β} (h : List.Forall₂ R as bs)
    (hfg : ∀ a b, R a b → g b = f a) : bs.filterMap g = as.filterMap f := by
  induction h with
  | nil => rfl
  | cons hab _ ih => rw [List.filterMap_cons, List.filterMap_cons, hfg _ _ hab, ih]

theorem forall₂_filter {R : α → β → Prop} {p : α → Bool} {q : β → Bool} {as : List α}
    {bs : List β} (h : List.Forall₂ R as bs) (hpq : ∀ a b, R a b → p a = q b) :
    List.Forall₂ R (as.filter p) (bs.filter q) := by
  induction h with
  | nil => exact .nil
  | @cons a b as bs hab _ ih =>
    rw [List.filter_cons, List.filter_cons, ← hpq a b hab]
    split
    . exact .cons hab ih
    . exact ih

theorem mapM_eq_ok_iff {f : α → Except ε β} {items : List α} {results : List β} :
    items.mapM f = .ok results ↔
      List.Forall₂ (fun item result => f item = .ok result) items results := by
  induction items generalizing results with
  | nil =>
    rw [List.mapM_nil, List.forall₂_nil_left_iff, pure_eq_ok, Except.ok.injEq, eq_comm]
  | cons item items ih =>
    rw [List.mapM_cons, List.forall₂_cons_left_iff, bind_eq_ok_iff]
    constructor
    · rintro ⟨result, hitem, h⟩
      obtain ⟨rest, hrest, h⟩ := bind_eq_ok_iff.mp h
      exact ⟨result, rest, hitem, ih.mp hrest, (Except.ok.inj h).symm⟩
    · rintro ⟨result, rest, hitem, hrest, rfl⟩
      refine ⟨result, hitem, ?_⟩
      rw [ih.mpr hrest]
      rfl

theorem mapM_eq_error_iff {f : α → Except ε β} {items : List α} {error : ε} :
    items.mapM f = .error error ↔
      ∃ before item after, items = before ++ item :: after ∧
        (∀ earlier ∈ before, ∃ result, f earlier = .ok result) ∧ f item = .error error := by
  induction items with
  | nil =>
    constructor
    · nofun
    · rintro ⟨before, item, after, heq, -⟩
      cases before <;> cases heq
  | cons item items ih =>
    rw [List.mapM_cons, bind_eq_error_iff]
    constructor
    · rintro (hitem | ⟨result, hitem, h⟩)
      · exact ⟨[], item, items, rfl, nofun, hitem⟩
      · obtain hitems | ⟨rest, _, h⟩ := bind_eq_error_iff.mp h
        · obtain ⟨before, failing, after, rfl, hbefore, hfailing⟩ := ih.mp hitems
          refine ⟨item :: before, failing, after, rfl, ?_, hfailing⟩
          exact List.forall_mem_cons.mpr ⟨⟨result, hitem⟩, hbefore⟩
        · cases h
    · rintro ⟨before, failing, after, heq, hbefore, hfailing⟩
      cases before with
      | nil =>
        obtain ⟨rfl, rfl⟩ := List.cons.inj heq
        exact .inl hfailing
      | cons first before =>
        obtain ⟨rfl, rfl⟩ := List.cons.inj heq
        obtain ⟨⟨result, hitem⟩, hbefore⟩ := List.forall_mem_cons.mp hbefore
        have hitems := ih.mpr ⟨before, failing, after, rfl, hbefore, hfailing⟩
        exact .inr ⟨result, hitem, by rw [hitems]; rfl⟩

theorem exists_mapM_eq_ok {f : α → Except ε β} {items : List α}
    (h : ∀ item ∈ items, ∃ result, f item = .ok result) : ∃ results, items.mapM f = .ok results := by
  cases hresults : items.mapM f with
  | ok results => exact ⟨results, rfl⟩
  | error error =>
    obtain ⟨before, failing, after, rfl, -, hfailing⟩ := mapM_eq_error_iff.mp hresults
    obtain ⟨result, hresult⟩ := h failing List.mem_append_cons_self
    rw [hfailing] at hresult
    cases hresult

theorem mapM_of_forall₂ {R : α → α → Prop} {f : α → Except ε β} {items items' : List α}
    (h : List.Forall₂ R items items') (hf : ∀ a a' b, R a a' → f a = .ok b → f a' = .ok b)
    {results : List β} (hresults : items.mapM f = .ok results) : items'.mapM f = .ok results := by
  have hall := forall₂_comp h.flip (mapM_eq_ok_iff.mp hresults)
  exact mapM_eq_ok_iff.mpr (hall.imp fun a' b ⟨a, ha, hb⟩ => hf a a' b ha hb)

theorem mapM_append_of_failure {f : α → Except ε β} {first : List α} (rest : List α)
    (h : ∃ item ∈ first, ∃ error, f item = .error error) :
    (first ++ rest).mapM f = first.mapM f := by
  rw [List.mapM_append]
  cases hfirst : first.mapM f with
  | error error => rfl
  | ok results =>
    obtain ⟨item, hmem, error, hitem⟩ := h
    obtain ⟨result, _, hresult⟩ := exists_of_mem_left (mapM_eq_ok_iff.mp hfirst) hmem
    rw [hitem] at hresult
    cases hresult

/-- What every step preserves holds after all of them. -/
theorem foldlM_invariant {P : β → Prop} {f : β → α → Except ε β}
    (hstep : ∀ b a b', P b → f b a = .ok b' → P b') {items : List α} {b b' : β} (hb : P b)
    (h : items.foldlM f b = .ok b') : P b' := by
  induction items generalizing b with
  | nil =>
    cases h
    exact hb
  | cons item items ih =>
    rw [List.foldlM_cons, bind_eq_ok_iff] at h
    obtain ⟨next, hnext, h⟩ := h
    exact ih (hstep b item next hb hnext) h

/-- Whether a computation that fails does so in one of certain ways. -/
def FailsAs (P : ε → Prop) (x : Except ε α) : Prop :=
  ∀ e, x = .error e → P e

section

variable {P : ε → Prop}

theorem failsAs_ok (a : α) : FailsAs P (.ok a) := nofun

theorem failsAs_error {e : ε} (h : P e) : FailsAs P (.error e : Except ε α) := by
  intro e' heq
  cases heq
  exact h

theorem FailsAs.bind {x : Except ε α} {f : α → Except ε β} (hx : FailsAs P x)
    (hf : ∀ a, FailsAs P (f a)) : FailsAs P (x >>= f) := by
  intro e h
  obtain h | ⟨a, -, h⟩ := bind_eq_error_iff.mp h
  . exact hx e h
  . exact hf a e h

theorem FailsAs.mapM {f : α → Except ε β} (h : ∀ a, FailsAs P (f a)) (items : List α) :
    FailsAs P (items.mapM f) := by
  intro e heq
  obtain ⟨before, item, after, -, -, hitem⟩ := mapM_eq_error_iff.mp heq
  exact h item e hitem

theorem FailsAs.foldlM {f : β → α → Except ε β} (h : ∀ b a, FailsAs P (f b a)) (b : β)
    (items : List α) : FailsAs P (items.foldlM f b) := by
  induction items generalizing b with
  | nil => exact failsAs_ok b
  | cons item items ih =>
    rw [List.foldlM_cons]
    exact (h b item).bind ih

end

def Keeps (x y : Except ε α) : Prop :=
  ∀ a, x = .ok a → y = .ok a

/-- A relation between computations that may fail, whatever their results and errors are. -/
abbrev Comparison : Type 1 :=
  ∀ ε α : Type, Except ε α → Except ε α → Prop

/-- Whether computations compare if their steps do. -/
structure Compatible (R : Comparison) : Prop where
  refl : ∀ {ε α : Type} (x : Except ε α), R ε α x x
  bind : ∀ {ε α β : Type} {x y : Except ε α} {f g : α → Except ε β},
    R ε α x y → (∀ a, R ε β (f a) (g a)) → R ε β (x >>= f) (y >>= g)
  mapError : ∀ {ε ε' α : Type} (f : ε → ε') {x y : Except ε α},
    R ε α x y → R ε' α (x.mapError f) (y.mapError f)

theorem compatible_eq : Compatible fun _ _ => Eq where
  refl _ := rfl
  bind := by
    intro ε α β x y f g hxy hfg
    rw [hxy, funext hfg]
  mapError := by
    intro ε ε' α f x y hxy
    rw [hxy]

theorem compatible_keeps : Compatible fun _ _ => Keeps where
  refl _ _ := id
  bind := by
    intro ε α β x y f g hxy hfg b hb
    obtain ⟨a, hx, hf⟩ := bind_eq_ok_iff.mp hb
    exact bind_eq_ok_iff.mpr ⟨a, hxy a hx, hfg a b hf⟩
  mapError := by
    intro ε ε' α f x y hxy a ha
    exact mapError_eq_ok_iff.mpr (hxy a (mapError_eq_ok_iff.mp ha))

/-- Whether computations both succeed, with related results, or fail with the same error. -/
inductive Agree {ε α β : Type} (R : α → β → Prop) : Except ε α → Except ε β → Prop where
  | ok {a : α} {b : β} (h : R a b) : Agree R (.ok a) (.ok b)
  | error (e : ε) : Agree R (.error e) (.error e)

section

variable {ε α α' β β' : Type} {R : α → α' → Prop} {S : β → β' → Prop}

theorem Agree.refl (x : Except ε α) : Agree Eq x x := by
  cases x with
  | ok a => exact .ok rfl
  | error e => exact .error e

theorem Agree.eq {x x' : Except ε α} (h : Agree Eq x x') : x = x' := by
  cases h with
  | ok h => rw [h]
  | error e => rfl

theorem Agree.bind {x : Except ε α} {x' : Except ε α'} {f : α → Except ε β}
    {f' : α' → Except ε β'} (hx : Agree R x x') (hf : ∀ a a', R a a' → Agree S (f a) (f' a')) :
    Agree S (x >>= f) (x' >>= f') := by
  cases hx with
  | ok h => exact hf _ _ h
  | error e => exact .error e

theorem Agree.bind_same (x : Except ε α) {f : α → Except ε β} {f' : α → Except ε β'}
    (hf : ∀ a, Agree S (f a) (f' a)) : Agree S (x >>= f) (x >>= f') := by
  apply (Agree.refl x).bind
  rintro a _ rfl
  exact hf a

theorem Agree.mapM {f : β → Except ε α} {f' : β → Except ε α'} (h : ∀ b, Agree R (f b) (f' b))
    (bs : List β) : Agree (List.Forall₂ R) (bs.mapM f) (bs.mapM f') := by
  induction bs with
  | nil => exact .ok .nil
  | cons b bs ih =>
    rw [List.mapM_cons, List.mapM_cons]
    apply (h b).bind
    intro a a' ha
    apply ih.bind
    intro rest rest' hrest
    exact .ok (.cons ha hrest)

theorem Agree.foldlM {f : α → β → Except ε α} {f' : α' → β → Except ε α'}
    (h : ∀ a a' b, R a a' → Agree R (f a b) (f' a' b)) {a : α} {a' : α'} (ha : R a a')
    (bs : List β) : Agree R (bs.foldlM f a) (bs.foldlM f' a') := by
  induction bs generalizing a a' with
  | nil => exact .ok ha
  | cons b bs ih =>
    rw [List.foldlM_cons, List.foldlM_cons]
    exact (h a a' b ha).bind fun _ _ => ih

end

end Facade.Outcome
