import Facade.Proofs.Catalog

/-!
This module contains the proofs about the places of wrappers and their owners. Classes are registered
one after another, and a class gets a place that no class before it has got. Later wrappers are only ever
dropped from a catalog, so that what holds of it then holds of it after any changes.
-/

namespace Facade.Catalog

open Data Host

/-- Classes, each with the class that has its place already if there is one. -/
abbrev Verdicts := List (HostClass × Option HostClass)

/-- The classes whose places nothing else has. -/
def Verdicts.registered (verdicts : Verdicts) : List HostClass :=
  (verdicts.filter (·.2.isNone)).map Prod.fst

/-- Whether verdicts are those about some classes: a class gets its place if no class before it has got
the place, and otherwise the verdict names the one that has. -/
inductive Decides (settings : Settings) : Verdicts → List HostClass → Prop where
  | nil : Decides settings [] []
  | free {verdicts : Verdicts} {classes : List HostClass} (h : Decides settings verdicts classes)
      {c : HostClass} (hfree : ∀ owner ∈ verdicts.registered,
        wrapperPlace settings owner.name ≠ wrapperPlace settings c.name) :
      Decides settings (verdicts ++ [(c, none)]) (classes ++ [c])
  | taken {verdicts : Verdicts} {classes : List HostClass} (h : Decides settings verdicts classes)
      {c owner : HostClass} (howner : owner ∈ verdicts.registered)
      (hplace : wrapperPlace settings owner.name = wrapperPlace settings c.name) :
      Decides settings (verdicts ++ [(c, some owner)]) (classes ++ [c])

/-- The wrapper of a class under its name. -/
def filed (settings : Settings) (c : HostClass) : String × Entry :=
  (c.name, Entry.ofClass settings c)

def takenFailure (settings : Settings) (c owner : HostClass) : Failure :=
  ⟨c.name, .clash (Entry.ofClass settings c).qualifiedName (.wrapperTaken owner.name)⟩

/-- The failures of the classes that do not get their places, in the order of the classes. -/
def Verdicts.failures (settings : Settings) (verdicts : Verdicts) : List Failure :=
  verdicts.filterMap fun (c, owner?) => owner?.map (takenFailure settings c)

section

variable {settings : Settings} {verdicts : Verdicts} {classes : List HostClass} {draft : Draft}

theorem Verdicts.registered_concat (verdicts : Verdicts) (c : HostClass) (owner? : Option HostClass) :
    Verdicts.registered (verdicts ++ [(c, owner?)]) =
      verdicts.registered ++ if owner?.isNone then [c] else [] := by
  rw [registered, List.filter_append, List.map_append]
  cases owner? <;> rfl

theorem Verdicts.failures_concat (verdicts : Verdicts) (c : HostClass) (owner? : Option HostClass) :
    Verdicts.failures settings (verdicts ++ [(c, owner?)]) =
      verdicts.failures settings ++ (owner?.map (takenFailure settings c)).toList := by
  rw [failures, List.filterMap_append]
  cases owner? <;> rfl

/-- What holds of a catalog that is being made when there are verdicts about some classes. -/
structure Draft.Follows (settings : Settings) (verdicts : Verdicts) (draft : Draft) : Prop where
  ordered : draft.catalog.entries.Ordered
  external : draft.catalog.externalTypes = settings.externalTypes
  entries : draft.catalog.entries.Perm (verdicts.registered.map (filed settings))
  owners : draft.owners =
    (verdicts.registered.map fun c => (wrapperPlace settings c.name, c.name)).reverse
  failures : draft.failures = verdicts.failures settings
  distinct : (verdicts.registered.map fun c => wrapperPlace settings c.name).Nodup

theorem Draft.Follows.exists_of_lookup (h : draft.Follows settings verdicts)
    {place : String × String} {name : String} (howner : draft.owners.lookup place = some name) :
    ∃ owner ∈ verdicts.registered, owner.name = name ∧ wrapperPlace settings owner.name = place := by
  obtain ⟨_, _, heq, -⟩ := List.lookup_eq_some_iff.mp howner
  have hmem : (place, name) ∈ draft.owners := by simp [heq]
  rw [h.owners, List.mem_reverse] at hmem
  obtain ⟨owner, hregistered, heq⟩ := List.mem_map.mp hmem
  cases heq
  exact ⟨owner, hregistered, rfl, rfl⟩

theorem Draft.Follows.ne_of_lookup (h : draft.Follows settings verdicts) {place : String × String}
    (hfree : draft.owners.lookup place = none) :
    ∀ owner ∈ verdicts.registered, wrapperPlace settings owner.name ≠ place := by
  rintro owner howner rfl
  have hmem : (wrapperPlace settings owner.name, owner.name) ∈ draft.owners := by
    rw [h.owners, List.mem_reverse]
    exact List.mem_map.mpr ⟨owner, howner, rfl⟩
  exact absurd (List.lookup_eq_none_iff.mp hfree _ hmem) (by simp)

theorem Draft.Follows.add_taken (h : draft.Follows settings verdicts) {c owner : HostClass}
    (howner : draft.owners.lookup (wrapperPlace settings c.name) = some owner.name) :
    (draft.add settings c).Follows settings (verdicts ++ [(c, some owner)]) := by
  have hregistered : Verdicts.registered (verdicts ++ [(c, some owner)]) = verdicts.registered := by
    simp [Verdicts.registered_concat]
  unfold Draft.add
  dsimp only
  rw [show draft.owners.lookup ((Entry.ofClass settings c).package, (Entry.ofClass settings c).name) =
    some owner.name from howner]
  constructor <;> try rw [hregistered]
  . exact h.ordered
  . exact h.external
  . exact h.entries
  . exact h.owners
  . rw [Verdicts.failures_concat, ← h.failures]
    rfl
  . exact h.distinct

theorem Draft.Follows.add_free (h : draft.Follows settings verdicts) {c : HostClass}
    (hnone : draft.owners.lookup (wrapperPlace settings c.name) = none) :
    (draft.add settings c).Follows settings (verdicts ++ [(c, none)]) := by
  have hfree := h.ne_of_lookup hnone
  have hregistered : Verdicts.registered (verdicts ++ [(c, none)]) = verdicts.registered ++ [c] := by
    simp [Verdicts.registered_concat]
  -- a class of the same name would have the same place
  have hkey : c.name ∉ draft.catalog.entries.keys := by
    intro hmem
    obtain ⟨e, he, hname⟩ := List.mem_map.mp hmem
    obtain ⟨owner, howner, rfl⟩ := List.mem_map.mp (h.entries.mem_iff.mp he)
    exact hfree owner howner (congrArg _ hname)
  unfold Draft.add
  dsimp only
  rw [show draft.owners.lookup ((Entry.ofClass settings c).package, (Entry.ofClass settings c).name) =
    none from hnone]
  constructor <;> try rw [hregistered]
  . exact h.ordered.insert c.name (Entry.ofClass settings c)
  . exact h.external
  . rw [List.map_append]
    exact (Dictionary.insert_perm hkey).trans
      ((h.entries.cons _).trans (List.perm_append_singleton _ _).symm)
  . rw [List.map_append, List.reverse_append, ← h.owners]
    rfl
  . rw [Verdicts.failures_concat, ← h.failures]
    exact (List.append_nil _).symm
  . rw [List.map_append, List.map_singleton, ← List.concat_eq_append]
    apply h.distinct.concat
    intro hmem
    obtain ⟨owner, howner, hplace⟩ := List.mem_map.mp hmem
    exact hfree owner howner hplace

/-- A class behind others gets its place, or there is a verdict that names the owner. -/
theorem Draft.Follows.add (h : draft.Follows settings verdicts)
    (hdecides : Decides settings verdicts classes) (c : HostClass) :
    ∃ owner?, Decides settings (verdicts ++ [(c, owner?)]) (classes ++ [c]) ∧
      (draft.add settings c).Follows settings (verdicts ++ [(c, owner?)]) := by
  cases hlookup : draft.owners.lookup (wrapperPlace settings c.name) with
  | some name =>
    obtain ⟨owner, howner, rfl, hplace⟩ := h.exists_of_lookup hlookup
    exact ⟨some owner, hdecides.taken howner hplace, h.add_taken hlookup⟩
  | none => exact ⟨none, hdecides.free (h.ne_of_lookup hlookup), h.add_free hlookup⟩

theorem Draft.Follows.foldl (h : draft.Follows settings verdicts)
    (hdecides : Decides settings verdicts classes) (more : List HostClass) :
    ∃ verdicts, Decides settings verdicts (classes ++ more) ∧
      (more.foldl (Draft.add settings) draft).Follows settings verdicts := by
  induction more generalizing classes verdicts draft with
  | nil =>
    rw [List.append_nil]
    exact ⟨verdicts, hdecides, h⟩
  | cons c more ih =>
    obtain ⟨owner?, hdecides, hfollows⟩ := h.add hdecides c
    obtain ⟨verdicts, hdecides, hfollows⟩ := ih hfollows hdecides
    rw [List.append_assoc, List.singleton_append] at hdecides
    exact ⟨verdicts, hdecides, hfollows⟩

theorem Draft.follows_start (settings : Settings) :
    Draft.Follows settings [] ⟨⟨[], settings.externalTypes⟩, [], []⟩ where
  ordered := List.Pairwise.nil
  external := rfl
  entries := .rfl
  owners := rfl
  failures := rfl
  distinct := List.nodup_nil

/-- The catalog of some classes, of which some may have one name, follows verdicts about them. -/
theorem exists_verdicts (settings : Settings) (classes : List HostClass) :
    ∃ verdicts draft, Decides settings verdicts classes ∧ Draft.Follows settings verdicts draft ∧
      ofClasses settings classes = (draft.catalog, draft.failures) := by
  obtain ⟨verdicts, hdecides, hfollows⟩ := (Draft.follows_start settings).foldl .nil classes
  exact ⟨verdicts, _, hdecides, hfollows, rfl⟩

theorem Draft.Follows.wellFormed (h : draft.Follows settings verdicts) : draft.catalog.WellFormed := by
  have hfiled : ∀ name entry, draft.catalog.get? name = some entry →
      ∃ c ∈ verdicts.registered, filed settings c = (name, entry) := fun name entry hentry =>
    List.mem_map.mp (h.entries.mem_iff.mp (Dictionary.mem_of_get? hentry))
  constructor
  . exact h.ordered
  . intro name entry hentry
    obtain ⟨c, -, heq⟩ := hfiled name entry hentry
    cases heq
    rfl
  -- no two of the classes that were registered have one place
  . intro name name' entry entry' hentry hentry' hpackage hname
    obtain ⟨c, hc, heq⟩ := hfiled name entry hentry
    obtain ⟨c', hc', heq'⟩ := hfiled name' entry' hentry'
    cases heq
    cases heq'
    have hplace : wrapperPlace settings c.name = wrapperPlace settings c'.name :=
      Prod.ext hpackage hname
    rw [List.inj_on_of_nodup_map h.distinct hc hc' hplace]
  . intro name entry hentry
    obtain ⟨c, -, heq⟩ := hfiled name entry hentry
    cases heq
    exact dot_not_mem_pascalCase (dot_not_mem_simpleNameOf c.name)

end

/-- A later change to a catalog. -/
inductive Change where
  | erase (className : String)
  | reject (test : String → Bool)

namespace Change

def apply (catalog : Catalog) : Change → Catalog × List Failure
  | erase className => (catalog.erase className, [])
  | reject test => catalog.rejectNames test

def drops (entry : String × Entry) : Change → Bool
  | erase className => entry.1 == className
  | reject test => test entry.2.name

theorem apply_eq (catalog : Catalog) (change : Change) :
    (change.apply catalog).1 =
      { catalog with entries := catalog.entries.filter fun e => !change.drops e } := by
  cases change <;> rfl

end Change

/-- The catalog after some changes. -/
def changed (changes : List Change) (catalog : Catalog) : Catalog :=
  changes.foldl (fun catalog change => (change.apply catalog).1) catalog

/-- Whether one of some changes drops a wrapper. -/
def isDropped (changes : List Change) (entry : String × Entry) : Bool :=
  changes.any (·.drops entry)

theorem changed_eq (changes : List Change) (catalog : Catalog) :
    catalog.changed changes =
      { catalog with entries := catalog.entries.filter (!isDropped changes ·) } := by
  induction changes generalizing catalog with
  | nil => simp [changed, isDropped]
  | cons change changes ih =>
    rw [changed, List.foldl_cons, ← changed, ih, Change.apply_eq, List.filter_filter]
    simp only [isDropped, List.any_cons, Bool.not_or, Bool.and_comm]

theorem WellFormed.get?_filter {catalog : Catalog} (h : catalog.WellFormed)
    (keep : String × Entry → Bool) (name : String) :
    get? { catalog with entries := catalog.entries.filter keep } name =
      (catalog.get? name).filter fun entry => keep (name, entry) :=
  h.ordered.get?_filter keep name

/-- Whether a catalog and failures are what comes of a catalog when the wrappers are dropped whose names
satisfy a test: there is one failure for each, in the order of the names of their classes. -/
structure Rejects (test : String → Bool) (catalog : Catalog) (outcome : Catalog × List Failure) :
    Prop where
  entries : ∀ name,
    outcome.1.get? name = (catalog.get? name).filter fun entry => !test entry.name
  external : outcome.1.externalTypes = catalog.externalTypes
  failures : ∀ failure, failure ∈ outcome.2 ↔
    ∃ name entry, catalog.get? name = some entry ∧ test entry.name = true ∧
      failure = ⟨name, .clash entry.qualifiedName (.shadowsStandard entry.name)⟩
  ascending : (outcome.2.map Failure.className).Pairwise (· < ·)

theorem WellFormed.rejects {catalog : Catalog} (h : catalog.WellFormed) (test : String → Bool) :
    Rejects test catalog (catalog.rejectNames test) where
  entries := h.get?_filter fun e => !test e.2.name
  external := rfl
  failures := by
    intro failure
    simp only [rejectNames, List.mem_map, List.mem_filter]
    constructor
    . rintro ⟨⟨name, entry⟩, ⟨hmem, htest⟩, rfl⟩
      have hentry := h.ordered.get?_of_mem hmem
      refine ⟨name, entry, hentry, htest, ?_⟩
      rw [Entry.shadowFailure, h.own name entry hentry]
    . rintro ⟨name, entry, hentry, htest, rfl⟩
      refine ⟨(name, entry), ⟨Dictionary.mem_of_get? hentry, htest⟩, ?_⟩
      rw [Entry.shadowFailure, h.own name entry hentry]
  ascending := by
    rw [h.classNames_rejectNames test, List.pairwise_map]
    exact h.ordered.sublist List.filter_sublist

/-- Whether a catalog is one without the wrapper of a class, if the class had one. -/
structure Erases (className : String) (catalog erased : Catalog) : Prop where
  entries : ∀ name, erased.get? name = if name = className then none else catalog.get? name
  external : erased.externalTypes = catalog.externalTypes
  unchanged : catalog.get? className = none → erased = catalog

theorem erases_erase (className : String) (catalog : Catalog) :
    Erases className catalog (catalog.erase className) where
  entries := by
    intro name
    have herase : catalog.erase className = catalog.restrict (· != className) := rfl
    rw [herase, get?_restrict]
    simp only [bne_iff_ne, ite_not]
  external := rfl
  unchanged := by
    intro hnone
    have hall : ∀ e ∈ catalog.entries, (e.1 != className) = true := by
      intro e he
      rw [bne_iff_ne]
      rintro rfl
      obtain ⟨entry, hentry⟩ := mem_keys_iff.mp (List.mem_map_of_mem he)
      rw [hnone] at hentry
      cases hentry
    rw [erase, Dictionary.erase, List.filter_eq_self.mpr hall]

/-- Of classes in any order, of any names, those get their places that no registered class before them
has got, and every other one is told the owner of its place. A catalog that is made so has every wrapper
under the name of its class, and no two of them in one place. That stays so whatever wrappers are dropped,
one by one or by their names, and nothing else changes. -/
theorem places_owned (settings : Settings) (classes : List HostClass) (changes : List Change) :
    let built := ofClasses settings classes
    let catalog := built.1.changed changes
    (∃ verdicts, Decides settings verdicts classes ∧
      built.1.entries.Perm (verdicts.registered.map (filed settings)) ∧
      built.2 = verdicts.failures settings ∧ built.1.externalTypes = settings.externalTypes) ∧
    catalog.WellFormed ∧
    catalog.externalTypes = settings.externalTypes ∧
    (∀ name, catalog.get? name =
      (built.1.get? name).filter fun entry => !isDropped changes (name, entry)) ∧
    (∀ test, Rejects test catalog (catalog.rejectNames test)) ∧
    ∀ className, Erases className catalog (catalog.erase className) := by
  intro built catalog
  obtain ⟨verdicts, draft, hdecides, hfollows, hbuilt⟩ := exists_verdicts settings classes
  have hcatalog : built.1 = draft.catalog := congrArg Prod.fst hbuilt
  have hfailures : built.2 = draft.failures := congrArg Prod.snd hbuilt
  have hwellFormed : built.1.WellFormed := by
    rw [hcatalog]
    exact hfollows.wellFormed
  have hchanged : catalog =
      { built.1 with entries := built.1.entries.filter (!isDropped changes ·) } :=
    changed_eq changes built.1
  have hkept : catalog.WellFormed := by
    rw [hchanged]
    exact hwellFormed.sublist List.filter_sublist
  have hexternal : built.1.externalTypes = settings.externalTypes := by
    rw [hcatalog]
    exact hfollows.external
  refine ⟨⟨verdicts, hdecides, ?_, ?_, hexternal⟩, hkept, ?_, ?_, hkept.rejects,
    fun className => erases_erase className catalog⟩
  . rw [hcatalog]
    exact hfollows.entries
  . rw [hfailures]
    exact hfollows.failures
  . rw [hchanged]
    exact hexternal
  . rw [hchanged]
    exact hwellFormed.get?_filter _

end Facade.Catalog
