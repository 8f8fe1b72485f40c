import Facade.Proofs.Legality

/-!
This module contains the proofs about how wrappers are referred to: no two wrappers of a batch are
referred to alike in a package, and no wrapper is referred to like a type that wrappers use by its simple
name.
-/

namespace Facade

open Data Host Outcome Text

namespace Scala

theorem filter_intercalate_of_pos {keep : Char → Bool} {sep : Char} (hsep : keep sep = true)
    (ps : List (List Char)) :
    ([sep].intercalate ps).filter keep = [sep].intercalate (ps.map (List.filter keep)) := by
  induction ps with
  | nil => rfl
  | cons p ps ih =>
    cases ps with
    | nil =>
      rw [List.map_singleton, List.intercalate_singleton, List.intercalate_singleton]
    | cons q ps =>
      rw [List.map_cons, List.map_cons, List.intercalate_cons_cons, List.intercalate_cons_cons,
        List.filter_append, List.filter_append, ih, List.filter_cons_of_pos hsep]
      rfl

theorem filter_segment {word : List Char} (h : '`' ∉ word) :
    (segment word).filter (· != '`') = word := by
  unfold segment
  split
  . rw [List.cons_append, List.filter_cons_of_neg (by decide), List.filter_append,
      EnumWrapper.filter_tick h]
    simp
  . exact EnumWrapper.filter_tick h

theorem filter_escapePath {path : String} (h : '`' ∉ path.toList) :
    (escapePath path).toList.filter (· != '`') = path.toList := by
  have hsegments : ((pieces (· == '.') path.toList).map segment).map (List.filter (· != '`')) =
      pieces (· == '.') path.toList := by
    rw [List.map_map]
    conv_rhs => rw [← List.map_id (pieces (· == '.') path.toList)]
    refine List.map_congr_left fun word hword => filter_segment fun htick => ?_
    exact h (mem_of_mem_pieces hword htick)
  rw [toList_escapePath, filter_intercalate_of_pos (by decide), hsegments, intercalate_pieces]

theorem escapePath_inj {path path' : String} (h : '`' ∉ path.toList) (h' : '`' ∉ path'.toList)
    (heq : escapePath path = escapePath path') : path = path' := by
  rw [← String.toList_inj, ← filter_escapePath h, heq, filter_escapePath h']

def writtenName (name : String) : String :=
  (safeName? name).getD name

theorem filter_writtenName {name : String} (h : '`' ∉ name.toList) :
    (writtenName name).toList.filter (· != '`') = name.toList := by
  unfold writtenName
  cases hsafe : safeName? name with
  | none => exact EnumWrapper.filter_tick h
  | some safe =>
    have hread := EnumWrapper.readName_of_safeName? hsafe
    rw [EnumWrapper.readName] at hread
    rw [Option.getD_some, ← hread, String.toList_ofList]

theorem dot_not_mem_writtenName {name : String} (h : '.' ∉ name.toList) :
    '.' ∉ (writtenName name).toList := by
  unfold writtenName
  cases hsafe : safeName? name with
  | none => exact h
  | some safe => exact dot_not_mem_of_safeName? hsafe

theorem reference_eq (entry : Catalog.Entry) (package : String) :
    reference entry package =
      if entry.package = package then writtenName entry.name
      else rootStart ++ escapePath entry.package ++ "." ++ writtenName entry.name := rfl

end Scala

namespace Catalog

open Scala

/-- Whether a wrapper can be told from others by its package and name, and from the types that wrappers
use by their simple names. -/
structure Entry.IsLegible (entry : Entry) : Prop where
  dotless : '.' ∉ entry.name.toList
  name : '`' ∉ entry.name.toList
  package : '`' ∉ entry.package.toList
  simple : '[' ∉ entry.name.toList
  available : entry.name ∉ standardTypes

theorem Entry.eq_of_reference {entry entry' : Entry} (h : entry.IsLegible) (h' : entry'.IsLegible)
    {package : String} (heq : reference entry package = reference entry' package) :
    entry.package = entry'.package ∧ entry.name = entry'.name := by
  have hnames : writtenName entry.name = writtenName entry'.name → entry.name = entry'.name := by
    intro heq
    rw [← String.toList_inj, ← filter_writtenName h.name, heq, filter_writtenName h'.name]
  have hdot := dot_not_mem_writtenName h.dotless
  have hdot' := dot_not_mem_writtenName h'.dotless
  have hroot : ∀ path name : String, (rootStart ++ escapePath path ++ "." ++ name).toList =
      (rootStart ++ escapePath path).toList ++ '.' :: name.toList := by
    intro path name
    simp
  rw [reference_eq, reference_eq] at heq
  split at heq
  . next hown =>
    split at heq
    . next hown' => exact ⟨hown.trans hown'.symm, hnames heq⟩
    . -- a name without dots is not one from the root
      rw [heq, hroot] at hdot
      simp at hdot
  . split at heq
    . rw [← heq, hroot] at hdot'
      simp at hdot'
    . rw [← String.toList_inj, hroot, hroot] at heq
      obtain ⟨hpackage, hname⟩ := append_dot_inj hdot hdot' heq
      rw [String.toList_inj, String.append_right_inj] at hpackage
      exact ⟨escapePath_inj h.package h'.package hpackage, hnames (String.toList_inj.mp hname)⟩

/-- Whether all wrappers of a catalog can be told apart by how they are referred to. -/
structure IsLegible (catalog : Catalog) : Prop where
  wellFormed : catalog.WellFormed
  entry : ∀ name entry, catalog.get? name = some entry → entry.IsLegible

/-- A reference to a wrapper tells which class it is for. -/
theorem IsLegible.eq_of_reference {catalog : Catalog} (h : catalog.IsLegible) {package : String}
    {name name' : String} {entry entry' : Entry} (hentry : catalog.get? name = some entry)
    (hentry' : catalog.get? name' = some entry')
    (heq : reference entry package = reference entry' package) : name = name' := by
  obtain ⟨hpackage, hname⟩ :=
    Entry.eq_of_reference (h.entry _ _ hentry) (h.entry _ _ hentry') heq
  exact h.wellFormed.distinct _ _ _ _ hentry hentry' hpackage hname

end Catalog

namespace Batch

open Scala

variable {text : String} {settings : Settings} {enums : List String} {records : List Record}

theorem isLegible_ofClass (hparse : Settings.parse text = .ok settings) {r : Record} {c : HostClass}
    (hdescribe : Record.describe settings.markers enums r = .ok c)
    (havailable : isUnavailable (Catalog.Entry.ofClass settings c).name = false) :
    (Catalog.Entry.ofClass settings c).IsLegible := by
  have hqualified := Record.isQualifiedName_of_describe hdescribe
  have hpackage := Settings.isQualifiedName_wrapperPackage hparse hqualified
  have hname : ∀ d ∈ ['[', '`'], d ∉ c.name.toList → d ∉ (pascalCase c.simpleName).toList := by
    intro d hd hclass hmem
    obtain ⟨hzero, hbrought⟩ := upper_brings_no_bracket _ (List.mem_map_of_mem hd)
    have hkept : ∀ c, d ∈ upper c → d = c := fun _ => eq_of_mem_upper_of_not_mem hzero hbrought
    exact not_mem_simpleNameOf hclass (mem_of_mem_pascalCase_of_kept hkept hmem)
  rw [isUnavailable, Bool.or_eq_false_iff, hidesStandardType] at havailable
  constructor
  . exact dot_not_mem_pascalCase (dot_not_mem_simpleNameOf _)
  . exact hname '`' (by decide) (tick_not_mem_of_isQualifiedName hqualified)
  . exact tick_not_mem_of_isQualifiedName hpackage
  . exact hname '[' (by decide) ((isPathText_of_isQualifiedName hqualified).not_mem (by decide))
  . simpa using havailable.1

/-- The catalog of a batch with the wrappers of some classes only, such as those that are not refused. -/
def Generator.remaining (settings : Settings) (enums : List String) (records : List Record)
    (keep : String → Bool) : Catalog :=
  (ofRecords settings enums records).catalog.restrict keep

theorem isLegible_remaining (hparse : Settings.parse text = .ok settings) (enums : List String)
    (records : List Record) (keep : String → Bool) :
    (Generator.remaining settings enums records keep).IsLegible where
  wellFormed := (Generator.wellFormed_ofRecords settings enums records).catalog.sublist
    List.filter_sublist
  entry name entry hentry := by
    rw [Generator.remaining, Catalog.get?_restrict] at hentry
    split at hentry
    . have havailable := Generator.isUnavailable_of_get? hentry
      obtain ⟨r, -, c, hdescribe, -, rfl⟩ :=
        Generator.comesFrom_ofRecords settings enums records name entry hentry
      exact isLegible_ofClass hparse hdescribe havailable
    . cases hentry

end Batch

end Facade
