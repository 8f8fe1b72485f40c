import Facade.Proofs.Alike.Description
import Facade.Proofs.Catalog
import Facade.Proofs.Extraction

/-!
This module contains the proofs about what the records of a batch have to do with one another before
wrappers are generated: nothing but that some are enumerations, if their names differ, and no order
either, if the names of their wrappers differ as well.
-/

namespace Facade

open Data Host Outcome

namespace Record

variable {markers : Settings.Markers} {enums enums' : List String}

/-- The description of a record, if it is not flawed. -/
def described? (markers : Settings.Markers) (enums : List String) (r : Record) : Option HostClass :=
  match describe markers enums r with
  | .ok c => some c
  | .error _ => none

/-- The failure of a record that is flawed. -/
def flaw? (markers : Settings.Markers) (enums : List String) (r : Record) : Option Failure :=
  match describe markers enums r with
  | .ok _ => none
  | .error refusal => some ⟨r.name, refusal⟩

theorem describeAll_eq_filterMap {seen : List String} {records : List Record}
    (hnodup : (records.map Record.name).Nodup) (hnew : ∀ r ∈ records, r.name ∉ seen) :
    describeAll markers enums seen records =
      ⟨records.filterMap (described? markers enums), records.filterMap (flaw? markers enums)⟩ := by
  induction records generalizing seen with
  | nil => rfl
  | cons r rs ih =>
    rw [List.map_cons, List.nodup_cons] at hnodup
    have hcontains : ¬ seen.contains r.name = true := by simpa using hnew r List.mem_cons_self
    have hrest : ∀ r' ∈ rs, r'.name ∉ r.name :: seen := by
      intro r' hr'
      rw [List.mem_cons, not_or]
      refine ⟨?_, hnew r' (List.mem_cons_of_mem _ hr')⟩
      intro hname
      exact hnodup.1 (hname ▸ List.mem_map_of_mem hr')
    rw [describeAll, ih hnodup.2 hrest, if_neg hcontains, List.filterMap_cons, List.filterMap_cons,
      described?, flaw?]
    cases describe markers enums r <;> rfl

theorem extract_eq_filterMap (markers : Settings.Markers) (enums : List String)
    {records : List Record} (hnodup : (records.map Record.name).Nodup) :
    describeAll markers enums [] records =
      ⟨records.filterMap (described? markers enums), records.filterMap (flaw? markers enums)⟩ :=
  describeAll_eq_filterMap hnodup fun _ _ => List.not_mem_nil

theorem flaw?_eq (enums enums' : List String) :
    flaw? markers enums = flaw? markers enums' := by
  funext r
  have hagree := describe_agree markers enums enums' r
  unfold flaw?
  generalize describe markers enums r = x, describe markers enums' r = x' at hagree ⊢
  cases hagree <;> rfl

theorem described?_rel (enums enums' : List String) (r : Record) :
    Option.Rel (HostClass.Alike enums enums') (described? markers enums r)
      (described? markers enums' r) := by
  have hagree := describe_agree markers enums enums' r
  unfold described?
  generalize describe markers enums r = x, describe markers enums' r = x' at hagree ⊢
  cases hagree with
  | ok h => exact .some h
  | error refusal => exact .none

theorem forall₂_described (markers : Settings.Markers) (enums enums' : List String)
    (records : List Record) :
    List.Forall₂ (HostClass.Alike enums enums') (records.filterMap (described? markers enums))
      (records.filterMap (described? markers enums')) := by
  induction records with
  | nil => exact .nil
  | cons r rs ih =>
    have hrel : Option.Rel (HostClass.Alike enums enums') (described? markers enums r)
        (described? markers enums' r) := described?_rel enums enums' r
    rw [List.filterMap_cons, List.filterMap_cons]
    generalize described? markers enums r = c, described? markers enums' r = c' at hrel ⊢
    cases hrel with
    | none => exact ih
    | some h => exact .cons h ih

theorem name_of_described? {r : Record} {c : HostClass} (h : described? markers enums r = some c) :
    c.name = r.name := by
  unfold described? at h
  split at h
  . next hdescribe =>
    cases h
    exact describe_name hdescribe
  . cases h

theorem map_described_sublist {γ : Type} (f : String → γ) (records : List Record) :
    ((records.filterMap (described? markers enums)).map fun c => f c.name).Sublist
      (records.map fun r => f r.name) := by
  induction records with
  | nil => exact List.Sublist.refl _
  | cons r rs ih =>
    rw [List.filterMap_cons]
    cases hdescribed : described? markers enums r with
    | none => exact ih.cons _
    | some c =>
      rw [List.map_cons, List.map_cons, name_of_described? hdescribed]
      exact ih.cons_cons _

end Record

namespace Catalog

variable {settings : Settings} {classes classes' : List HostClass}

theorem ofClasses_congr
    (h : List.Forall₂ (fun c c' => c.name = c'.name ∧ c.isEnum = c'.isEnum) classes classes') :
    ofClasses settings classes = ofClasses settings classes' := by
  have hfold : ∀ draft : Draft, classes.foldl (Draft.add settings) draft =
      classes'.foldl (Draft.add settings) draft := by
    induction h with
    | nil => exact fun _ => rfl
    | @cons c c' classes classes' hc _ ih =>
      intro draft
      have hentry : Entry.ofClass settings c = Entry.ofClass settings c' := by
        rw [Entry.ofClass, Entry.ofClass, HostClass.package, HostClass.package,
          HostClass.simpleName, HostClass.simpleName, hc.1, hc.2]
      rw [List.foldl_cons, List.foldl_cons, Draft.add, Draft.add, hentry, hc.1]
      exact ih _
  rw [ofClasses, ofClasses, hfold]

theorem failures_foldl_add {draft : Draft}
    (h : (draft.owners.map Prod.fst ++ classes.map fun c => wrapperPlace settings c.name).Nodup) :
    (classes.foldl (Draft.add settings) draft).failures = draft.failures := by
  induction classes generalizing draft with
  | nil => rfl
  | cons c classes ih =>
    have hnew : wrapperPlace settings c.name ∉ draft.owners.map Prod.fst := by
      rw [List.map_cons, List.nodup_append] at h
      intro hmem
      exact h.2.2 _ hmem _ List.mem_cons_self rfl
    -- nobody owns the place of the class yet, so adding it cannot fail
    have hfree : draft.owners.lookup (wrapperPlace settings c.name) = none := by
      rw [List.lookup_eq_none_iff]
      intro owner howner
      rw [bne_iff_ne]
      intro heq
      exact hnew (heq ▸ List.mem_map_of_mem howner)
    have hadd : draft.add settings c = {
        draft with
        catalog := draft.catalog.insert (Entry.ofClass settings c)
        owners := (wrapperPlace settings c.name, c.name) :: draft.owners } := by
      unfold Draft.add
      dsimp only
      rw [show ((Entry.ofClass settings c).package, (Entry.ofClass settings c).name) =
        wrapperPlace settings c.name from rfl, hfree]
    rw [List.foldl_cons, ih, hadd]
    rw [hadd]
    exact List.perm_middle.nodup_iff.mp h

/-- A class of a batch gets its own wrapper if there are no two of a package and name. -/
theorem ofClasses_of_distinct (hnames : (classes.map HostClass.name).Nodup)
    (hplaces : (classes.map fun c => wrapperPlace settings c.name).Nodup) :
    (ofClasses settings classes).2 = [] ∧
      (ofClasses settings classes).1.externalTypes = settings.externalTypes ∧
      (ofClasses settings classes).1.entries.Ordered ∧
      ∀ name entry, (ofClasses settings classes).1.get? name = some entry ↔
        ∃ c ∈ classes, c.name = name ∧ entry = Entry.ofClass settings c := by
  have hfailures : (ofClasses settings classes).2 = [] := by
    unfold ofClasses
    exact failures_foldl_add hplaces
  obtain ⟨draft, hdraft, heq⟩ := ofClasses_sound settings hnames
  rw [heq] at hfailures ⊢
  dsimp only at hfailures ⊢
  refine ⟨hfailures, hdraft.external, hdraft.ordered, ?_⟩
  intro name entry
  constructor
  . exact hdraft.entries name entry
  . rintro ⟨c, hc, rfl, rfl⟩
    -- no class has failed, so all of them are in the catalog
    have hkeys := hdraft.perm
    rw [hfailures, List.map_nil, List.append_nil] at hkeys
    obtain ⟨entry, hentry⟩ := mem_keys_iff.mp (hkeys.mem_iff.mpr (List.mem_map_of_mem hc))
    obtain ⟨c', hc', hname, rfl⟩ := hdraft.entries c.name entry hentry
    rw [List.inj_on_of_nodup_map hnames hc' hc hname] at hentry
    exact hentry

/-- The order of classes makes no difference to their wrappers if these have different names. -/
theorem ofClasses_perm (hperm : classes.Perm classes') (hnames : (classes.map HostClass.name).Nodup)
    (hplaces : (classes.map fun c => wrapperPlace settings c.name).Nodup) :
    ofClasses settings classes = ofClasses settings classes' := by
  obtain ⟨hfailures, hexternal, hordered, hentries⟩ := ofClasses_of_distinct hnames hplaces
  obtain ⟨hfailures', hexternal', hordered', hentries'⟩ := ofClasses_of_distinct
    ((hperm.map _).nodup_iff.mp hnames) ((hperm.map _).nodup_iff.mp hplaces)
  have hsame : (ofClasses settings classes).1.entries = (ofClasses settings classes').1.entries := by
    apply hordered.ext hordered'
    intro name entry
    refine (hentries name entry).trans (Iff.trans ?_ (hentries' name entry).symm)
    simp only [hperm.mem_iff]
  generalize ofClasses settings classes = x, ofClasses settings classes' = x' at *
  obtain ⟨⟨entries, externalTypes⟩, failures⟩ := x
  obtain ⟨⟨entries', externalTypes'⟩, failures'⟩ := x'
  dsimp only at *
  rw [hfailures, hfailures', hexternal, hexternal', hsame]

end Catalog

end Facade
