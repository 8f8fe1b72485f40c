import Facade.Catalog
import Facade.Proofs.Dictionary
import Facade.Proofs.Names

/-!
This module contains the proofs about catalogs: every wrapper is found under the name of its class,
no two wrappers have the same name and package, and a class without a wrapper has a failure.
-/

namespace Facade.Catalog

open Data Host Text

/-- The package and the name of the wrapper of a class. -/
def wrapperPlace (settings : Settings) (className : String) : String × String :=
  (settings.wrapperPackage (packageOf className), pascalCase (simpleNameOf className))

/-- The catalog with the wrappers of those classes only whose names satisfy a test. -/
def restrict (keep : String → Bool) (catalog : Catalog) : Catalog :=
  { catalog with entries := catalog.entries.filter fun e => keep e.1 }

theorem get?_restrict (keep : String → Bool) (catalog : Catalog) (name : String) :
    (catalog.restrict keep).get? name = if keep name then catalog.get? name else none :=
  Dictionary.get?_filter keep catalog.entries name

@[simp]
theorem external?_restrict (keep : String → Bool) (catalog : Catalog) (name : String) :
    (catalog.restrict keep).external? name = catalog.external? name := rfl

theorem restrict_restrict (keep keep' : String → Bool) (catalog : Catalog) :
    (catalog.restrict keep).restrict keep' =
      catalog.restrict fun name => keep name && keep' name := by
  simp only [restrict, List.filter_filter, Bool.and_comm]

theorem restrict_congr {keep keep' : String → Bool} {catalog : Catalog}
    (h : ∀ name ∈ catalog.entries.keys, keep name = keep' name) :
    catalog.restrict keep = catalog.restrict keep' := by
  unfold restrict
  congr 1
  apply List.filter_congr
  intro e he
  exact h e.1 (List.mem_map_of_mem he)

theorem foldl_erase (names : List String) (catalog : Catalog) :
    names.foldl (fun catalog name => catalog.erase name) catalog =
      catalog.restrict fun name => !names.contains name := by
  induction names generalizing catalog with
  | nil => simp [restrict]
  | cons first names ih =>
    have herase : catalog.erase first = catalog.restrict fun name => name != first := rfl
    rw [List.foldl_cons, ih, herase, restrict_restrict]
    congr 1
    funext name
    rw [List.contains_cons, Bool.not_or]
    rfl

theorem has_iff {catalog : Catalog} {name : String} :
    catalog.has name = true ↔ name ∈ catalog.entries.keys :=
  Dictionary.has_iff

theorem mem_keys_iff {catalog : Catalog} {name : String} :
    name ∈ catalog.entries.keys ↔ ∃ entry, catalog.get? name = some entry :=
  Dictionary.mem_keys_iff

/-- What holds of the catalog of a batch. -/
structure WellFormed (catalog : Catalog) : Prop where
  ordered : catalog.entries.Ordered
  /-- A wrapper is found under the name of its class. -/
  own : ∀ name entry, catalog.get? name = some entry → entry.className = name
  /-- No two wrappers have the same name and package. -/
  distinct : ∀ name name' entry entry', catalog.get? name = some entry →
    catalog.get? name' = some entry' → entry.package = entry'.package → entry.name = entry'.name →
    name = name'
  /-- The names of wrappers are simple ones. -/
  dotless : ∀ name entry, catalog.get? name = some entry → '.' ∉ entry.name.toList

theorem Entry.toList_qualifiedName (entry : Entry) :
    entry.qualifiedName.toList =
      if entry.package.isEmpty then entry.name.toList
      else entry.package.toList ++ '.' :: entry.name.toList := by
  unfold qualifiedName
  split <;> simp

/-- A dot that only names without a dot follow is the last one. -/
theorem append_dot_inj {package package' name name' : List Char} (hname : '.' ∉ name)
    (hname' : '.' ∉ name') (h : package ++ '.' :: name = package' ++ '.' :: name') :
    package = package' ∧ name = name' := by
  have hcut : ∀ package name : List Char, '.' ∉ name →
      cutLast? '.' (package ++ '.' :: name) = some (package, name) := by
    intro package name hname
    induction package with
    | nil => simp [cutLast?, cutLast?_of_not_mem hname]
    | cons c package ih => simp [cutLast?, ih]
  have heq := hcut package name hname
  rw [h, hcut package' name' hname'] at heq
  simp only [Option.some.injEq, Prod.mk.injEq] at heq
  exact ⟨heq.1.symm, heq.2.symm⟩

/-- A wrapper with its package tells which class it is for. -/
theorem WellFormed.eq_of_qualifiedName {catalog : Catalog} (h : catalog.WellFormed)
    {name name' : String} {entry entry' : Entry} (hentry : catalog.get? name = some entry)
    (hentry' : catalog.get? name' = some entry')
    (heq : entry.qualifiedName = entry'.qualifiedName) : name = name' := by
  have hdot := h.dotless name entry hentry
  have hdot' := h.dotless name' entry' hentry'
  have hlist := congrArg String.toList heq
  rw [Entry.toList_qualifiedName, Entry.toList_qualifiedName] at hlist
  -- names have no dots, so the last dot of a qualified name ends the package
  have hsame : entry.package = entry'.package ∧ entry.name = entry'.name := by
    split at hlist
    . next hpackage =>
      split at hlist
      . next hpackage' =>
        rw [String.isEmpty_iff] at hpackage hpackage'
        exact ⟨hpackage.trans hpackage'.symm, String.toList_injective hlist⟩
      . rw [hlist] at hdot
        simp at hdot
    . split at hlist
      . rw [← hlist] at hdot'
        simp at hdot'
      . obtain ⟨hpackage, hname⟩ := append_dot_inj hdot hdot' hlist
        exact ⟨String.toList_injective hpackage, String.toList_injective hname⟩
  exact h.distinct name name' entry entry' hentry hentry' hsame.1 hsame.2

def Covers (catalog : Catalog) (classes : List HostClass) : Prop :=
  (classes.map HostClass.name).Perm catalog.entries.keys

theorem Covers.nodup {catalog : Catalog} {classes : List HostClass} (h : catalog.Covers classes)
    (hordered : catalog.entries.Ordered) : (classes.map HostClass.name).Nodup :=
  h.nodup_iff.mpr hordered.nodup_keys

theorem covers_filter {catalog : Catalog} {classes : List HostClass}
    (hordered : catalog.entries.Ordered) (hnodup : (classes.map HostClass.name).Nodup)
    (hkeys : ∀ name ∈ catalog.entries.keys, name ∈ classes.map HostClass.name) :
    catalog.Covers (classes.filter fun c => catalog.has c.name) := by
  have hfilter : ((classes.filter fun c => catalog.has c.name).map HostClass.name).Nodup :=
    hnodup.sublist ((List.filter_sublist).map HostClass.name)
  rw [Covers, List.perm_ext_iff_of_nodup hfilter hordered.nodup_keys]
  intro name
  constructor
  . intro hname
    obtain ⟨c, hc, rfl⟩ := List.mem_map.mp hname
    exact has_iff.mp (List.mem_filter.mp hc).2
  . intro hname
    obtain ⟨c, hc, rfl⟩ := List.mem_map.mp (hkeys name hname)
    exact List.mem_map_of_mem (List.mem_filter.mpr ⟨hc, has_iff.mpr hname⟩)

theorem WellFormed.sublist {catalog catalog' : Catalog} (h : catalog.WellFormed)
    (hsub : catalog'.entries.Sublist catalog.entries) : catalog'.WellFormed := by
  have hget : ∀ name entry, catalog'.get? name = some entry → catalog.get? name = some entry :=
    fun _ _ hentry => h.ordered.get?_of_mem (hsub.subset (Dictionary.mem_of_get? hentry))
  constructor
  . exact h.ordered.sublist hsub
  . exact fun name entry hentry => h.own name entry (hget name entry hentry)
  . exact fun name name' entry entry' hentry hentry' =>
      h.distinct name name' entry entry' (hget name entry hentry) (hget name' entry' hentry')
  . exact fun name entry hentry => h.dotless name entry (hget name entry hentry)

/-- What holds of a catalog that is being made when some classes have been put in. -/
structure Draft.Sound (settings : Settings) (done : List HostClass) (draft : Draft) : Prop where
  ordered : draft.catalog.entries.Ordered
  external : draft.catalog.externalTypes = settings.externalTypes
  entries : ∀ name entry, draft.catalog.get? name = some entry →
    ∃ c ∈ done, c.name = name ∧ entry = Entry.ofClass settings c
  owners : ∀ name entry, draft.catalog.get? name = some entry →
    draft.owners.lookup (entry.package, entry.name) = some name
  perm : (draft.catalog.entries.keys ++ draft.failures.map Failure.className).Perm
    (done.map HostClass.name)

theorem Draft.Sound.add_taken {settings : Settings} {done : List HostClass} {draft : Draft}
    (h : draft.Sound settings done) (c : HostClass) (refusal : Refusal) :
    Draft.Sound settings (done ++ [c])
      { draft with failures := draft.failures ++ [⟨c.name, refusal⟩] } where
  ordered := h.ordered
  external := h.external
  entries := by
    intro name entry hentry
    obtain ⟨c', hc', hname⟩ := h.entries name entry hentry
    exact ⟨c', List.mem_append_left _ hc', hname⟩
  owners := h.owners
  perm := by
    simp only [List.map_append, ← List.append_assoc]
    exact h.perm.append_right _

theorem Draft.Sound.add_free {settings : Settings} {done : List HostClass} {draft : Draft}
    (h : draft.Sound settings done) {c : HostClass} (hnew : c.name ∉ done.map HostClass.name)
    (hfree : draft.owners.lookup ((Entry.ofClass settings c).package,
      (Entry.ofClass settings c).name) = none) :
    Draft.Sound settings (done ++ [c])
      { draft with
        catalog := draft.catalog.insert (Entry.ofClass settings c)
        owners := (((Entry.ofClass settings c).package, (Entry.ofClass settings c).name), c.name) ::
          draft.owners } := by
  have hget : ∀ name, (draft.catalog.insert (Entry.ofClass settings c)).get? name =
      if name = c.name then some (Entry.ofClass settings c) else draft.catalog.get? name :=
    Dictionary.get?_insert c.name (Entry.ofClass settings c) draft.catalog.entries
  constructor <;> dsimp only
  . exact h.ordered.insert c.name (Entry.ofClass settings c)
  . exact h.external
  . intro name entry hentry
    rw [hget] at hentry
    split at hentry
    . next hname =>
      cases hentry
      exact ⟨c, by simp, hname.symm, rfl⟩
    . obtain ⟨c', hc', hname⟩ := h.entries name entry hentry
      exact ⟨c', List.mem_append_left _ hc', hname⟩
  . intro name entry hentry
    rw [hget] at hentry
    rw [List.lookup_cons]
    split at hentry
    . next hname =>
      cases hentry
      simp [hname]
    . have howner := h.owners name entry hentry
      -- the pair of the new wrapper has no owner so far
      split
      . next heq =>
        rw [beq_iff_eq] at heq
        rw [heq, hfree] at howner
        cases howner
      . exact howner
  . have hkey : c.name ∉ draft.catalog.entries.keys := by
      intro hmem
      exact hnew (h.perm.subset (List.mem_append_left _ hmem))
    have hkeys : (draft.catalog.insert (Entry.ofClass settings c)).entries.keys.Perm
        (c.name :: draft.catalog.entries.keys) := Dictionary.keys_insert_perm hkey
    rw [List.map_append]
    refine (hkeys.append_right _).trans ?_
    exact (h.perm.cons c.name).trans (List.perm_append_singleton _ _).symm

theorem Draft.Sound.add {settings : Settings} {done : List HostClass} {draft : Draft}
    (h : draft.Sound settings done) {c : HostClass} (hnew : c.name ∉ done.map HostClass.name) :
    (draft.add settings c).Sound settings (done ++ [c]) := by
  unfold Draft.add
  dsimp only
  split
  . exact h.add_taken c _
  . next hfree => exact h.add_free hnew hfree

theorem Draft.Sound.foldl {settings : Settings} {done classes : List HostClass} {draft : Draft}
    (h : draft.Sound settings done) (hnodup : ((done ++ classes).map HostClass.name).Nodup) :
    (classes.foldl (Draft.add settings) draft).Sound settings (done ++ classes) := by
  induction classes generalizing done draft with
  | nil => simpa using h
  | cons c classes ih =>
    have happend : done ++ c :: classes = (done ++ [c]) ++ classes := by simp
    have hnew : c.name ∉ done.map HostClass.name := by
      rw [List.map_append, List.map_cons, List.nodup_append] at hnodup
      intro hmem
      exact hnodup.2.2 _ hmem _ List.mem_cons_self rfl
    rw [happend] at hnodup ⊢
    exact ih (h.add hnew) hnodup

theorem Draft.sound_start (settings : Settings) :
    Draft.Sound settings [] ⟨⟨[], settings.externalTypes⟩, [], []⟩ where
  ordered := List.Pairwise.nil
  external := rfl
  entries := by
    intro name entry hentry
    cases hentry
  owners := by
    intro name entry hentry
    cases hentry
  perm := List.Perm.refl _

theorem Draft.Sound.wellFormed {settings : Settings} {done : List HostClass} {draft : Draft}
    (h : draft.Sound settings done) : draft.catalog.WellFormed where
  ordered := h.ordered
  own := by
    intro name entry hentry
    obtain ⟨c, _, hname, rfl⟩ := h.entries name entry hentry
    exact hname
  distinct := by
    intro name name' entry entry' hentry hentry' hpackage hname
    have howner := h.owners name entry hentry
    rw [hpackage, hname, h.owners name' entry' hentry'] at howner
    exact (Option.some.inj howner).symm
  dotless := by
    intro name entry hentry
    obtain ⟨c, _, _, rfl⟩ := h.entries name entry hentry
    exact dot_not_mem_pascalCase (dot_not_mem_simpleNameOf c.name)

theorem ofClasses_sound (settings : Settings) {classes : List HostClass}
    (h : (classes.map HostClass.name).Nodup) :
    ∃ draft : Draft, draft.Sound settings classes ∧
      ofClasses settings classes = (draft.catalog, draft.failures) :=
  ⟨_, (Draft.sound_start settings).foldl h, rfl⟩

theorem rejectNames_sublist (test : String → Bool) (catalog : Catalog) :
    (catalog.rejectNames test).1.entries.Sublist catalog.entries :=
  List.filter_sublist

theorem WellFormed.classNames_rejectNames {catalog : Catalog} (h : catalog.WellFormed)
    (test : String → Bool) :
    (catalog.rejectNames test).2.map Failure.className =
      (catalog.entries.filter fun e => test e.2.name).map Prod.fst := by
  simp only [rejectNames, List.map_map]
  apply List.map_congr_left
  rintro ⟨name, entry⟩ hmem
  exact h.own name entry (h.ordered.get?_of_mem (List.mem_filter.mp hmem).1)

theorem WellFormed.rejectNames_perm {catalog : Catalog} (h : catalog.WellFormed)
    (test : String → Bool) :
    ((catalog.rejectNames test).1.entries.keys ++
        (catalog.rejectNames test).2.map Failure.className).Perm catalog.entries.keys := by
  rw [h.classNames_rejectNames test, Dictionary.keys, ← List.map_append]
  have hperm := List.filter_append_perm (fun e : String × Entry => test e.2.name) catalog.entries
  exact (List.perm_append_comm.trans hperm).map Prod.fst

end Facade.Catalog
