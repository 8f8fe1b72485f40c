import Facade.Files.Store
import Facade.Proofs.Names

/-!
This module contains the proofs about stores: which place a path leads to, that the way there stays
open while other files are written, and what the writing of a file changes.
-/

namespace Facade.Files

open Text

namespace Path

def IsPlain (part : List Char) : Prop :=
  part ≠ [] ∧ part ≠ ['.'] ∧ part ≠ ['.', '.']

theorem isPlain_of_dot_not_mem {part : List Char} (hne : part ≠ []) (hdot : '.' ∉ part) :
    IsPlain part := by
  refine ⟨hne, ?_, ?_⟩
  . rintro rfl
    exact hdot List.mem_cons_self
  . rintro rfl
    exact hdot List.mem_cons_self

theorem IsPlain.isIdle {part : List Char} (h : IsPlain part) : isIdle part = false := by
  simp [Path.isIdle, h.1, h.2.1]

def Descends (path : Path) : Prop :=
  ∀ part ∈ pieces (· == '/') path.toList, IsPlain part

theorem Descends.isAbsolute {path : Path} (h : Descends path) : isAbsolute path = false := by
  cases hpath : Path.isAbsolute path with
  | false => rfl
  | true =>
    obtain ⟨rest, hrest⟩ := List.head?_eq_some_iff.mp (beq_iff_eq.mp hpath)
    have hnil : [] ∈ pieces (· == '/') path.toList := by
      rw [hrest, pieces]
      exact List.mem_cons_self
    exact absurd rfl (h [] hnil).1

theorem pieces_append_slash (cs ds : List Char) :
    pieces (· == '/') (cs ++ '/' :: ds) = pieces (· == '/') cs ++ pieces (· == '/') ds :=
  @pieces_append_cons (· == '/') '/' rfl cs ds

theorem pieces_join {directory path : Path} (hpath : isAbsolute path = false)
    (hdirectory : directory ≠ "") (hend : directory.toList.getLast? ≠ some '/') :
    pieces (· == '/') (join directory path).toList =
      pieces (· == '/') directory.toList ++ pieces (· == '/') path.toList := by
  have hjoin : (join directory path).toList = directory.toList ++ '/' :: path.toList := by
    simp [join, hpath, hdirectory, hend]
  rw [hjoin]
  exact pieces_append_slash _ _

theorem isAbsolute_append {path : Path} (h : path ≠ "") (rest : String) :
    isAbsolute (path ++ rest) = isAbsolute path := by
  have hne : path.toList ≠ [] := by simpa using h
  rw [isAbsolute, isAbsolute, String.toList_append, List.head?_append_of_ne_nil _ hne]

theorem exists_pieces_join (directory : Path) :
    ∃ parts, ∀ path, isAbsolute path = false →
      isAbsolute (join directory path) = isAbsolute directory ∧
        pieces (· == '/') (join directory path).toList =
          parts ++ pieces (· == '/') path.toList := by
  -- A slash is put between the two unless the directory is empty or ends in one.
  by_cases hempty : directory = ""
  . refine ⟨[], fun path hpath => ?_⟩
    have hjoin : join directory path = path := by simp [join, hempty]
    rw [hjoin, hempty, hpath]
    exact ⟨rfl, rfl⟩
  by_cases hend : directory.toList.getLast? = some '/'
  . obtain ⟨front, hfront⟩ := List.getLast?_eq_some_iff.mp hend
    refine ⟨pieces (· == '/') front, fun path hpath => ?_⟩
    have hjoin : join directory path = directory ++ path := by simp [join, hpath, hempty, hend]
    rw [hjoin, isAbsolute_append hempty, String.toList_append, hfront, List.append_assoc]
    exact ⟨rfl, pieces_append_slash _ _⟩
  . refine ⟨pieces (· == '/') directory.toList, fun path hpath => ⟨?_, ?_⟩⟩
    . have hjoin : join directory path = directory ++ "/" ++ path := by
        simp [join, hpath, hempty, hend]
      rw [hjoin, String.append_assoc, isAbsolute_append hempty]
    . exact pieces_join hpath hempty hend

end Path

/-- The place that the parts of a path lead to from a directory if nothing is in the way. -/
def destination (location : Location) : List (List Char) → Location
  | [] => location
  | part :: parts =>
    if Path.isIdle part then destination location parts
    else if part = ['.', '.'] then destination location.dropLast parts
    else destination (location ++ [String.ofList part]) parts

theorem destination_append (location : Location) (parts parts' : List (List Char)) :
    destination location (parts ++ parts') = destination (destination location parts) parts' := by
  induction parts generalizing location with
  | nil => rfl
  | cons part parts ih =>
    rw [List.cons_append, destination, destination]
    split
    . exact ih location
    . split
      . exact ih location.dropLast
      . exact ih (location ++ [String.ofList part])

theorem destination_of_isPlain {parts : List (List Char)} (h : ∀ part ∈ parts, Path.IsPlain part)
    (location : Location) : destination location parts = location ++ parts.map String.ofList := by
  induction parts generalizing location with
  | nil => rw [destination, List.map_nil, List.append_nil]
  | cons part parts ih =>
    have hpart := h part List.mem_cons_self
    rw [destination, hpart.isIdle, if_neg Bool.false_ne_true, if_neg hpart.2.2,
      ih fun p hp => h p (List.mem_cons_of_mem _ hp), List.map_cons, List.append_assoc,
      List.singleton_append]

namespace Store

theorem lookup_filter_ne {location other : Location} (hne : other ≠ location)
    (nodes : List (Location × Node)) :
    (nodes.filter (·.1 != location)).lookup other = nodes.lookup other := by
  induction nodes with
  | nil => rfl
  | cons e es ih =>
    rw [List.filter_cons]
    split
    . rw [List.lookup_cons, List.lookup_cons, ih]
    . next heq =>
      have heq : e.1 = location := by simpa using heq
      rw [ih, List.lookup_cons, heq, beq_false_of_ne hne]

theorem node?_put {store : Store} {location : Location} {node : Node} (other : Location) :
    (store.put location node).node? other =
      if other = [] then some .directory
      else if other = location then some node else store.node? other := by
  unfold node? put
  cases other with
  | nil => rfl
  | cons name names =>
    rw [List.isEmpty_cons, if_neg Bool.false_ne_true, if_neg (List.cons_ne_nil _ _)]
    dsimp only
    rw [List.lookup_cons]
    by_cases heq : name :: names = location
    . rw [heq, beq_self_eq_true, if_pos rfl]
    . rw [beq_false_of_ne heq, if_neg heq, if_neg Bool.false_ne_true, lookup_filter_ne heq]

/-- Whether the directories of a store are directories in another one, too. -/
structure Grows (store store' : Store) : Prop where
  here : store'.here = store.here
  directory : ∀ location, store.node? location = some .directory →
    store'.node? location = some .directory

/-- Whether everything in a store is the same in another one. -/
structure Keeps (store store' : Store) : Prop where
  here : store'.here = store.here
  node : ∀ location node, store.node? location = some node → store'.node? location = some node

/-- Whether another store has come of a store by the writing of a file at a place. -/
structure Wrote (location : Location) (content : String) (store store' : Store) : Prop where
  here : store'.here = store.here
  free : store.node? location ≠ some .directory
  written : store'.node? location = some (.file content)
  node : ∀ other node, other ≠ location → store.node? other = some node →
    store'.node? other = some node

section

variable {store store' store'' : Store} {location place : Location} {content : String}

theorem Grows.refl (store : Store) : store.Grows store :=
  ⟨rfl, fun _ h => h⟩

theorem Grows.trans (h : store.Grows store') (h' : store'.Grows store'') : store.Grows store'' :=
  ⟨h'.here.trans h.here, fun _ hlocation => h'.directory _ (h.directory _ hlocation)⟩

theorem Keeps.refl (store : Store) : store.Keeps store :=
  ⟨rfl, fun _ _ h => h⟩

theorem Keeps.trans (h : store.Keeps store') (h' : store'.Keeps store'') : store.Keeps store'' :=
  ⟨h'.here.trans h.here, fun _ _ hnode => h'.node _ _ (h.node _ _ hnode)⟩

theorem Keeps.wrote (h : store.Keeps store') (h' : Wrote location content store' store'') :
    Wrote location content store store'' where
  here := h'.here.trans h.here
  free := fun hfree => h'.free (h.node _ _ hfree)
  written := h'.written
  node := fun other node hne hnode => h'.node other node hne (h.node other node hnode)

theorem Wrote.grows (h : Wrote location content store store') : store.Grows store' where
  here := h.here
  directory := by
    intro other hother
    by_cases heq : other = location
    . rw [heq] at hother
      exact absurd hother h.free
    . exact h.node other .directory heq hother

/-- A step of a walk asks the store only whether it is at a directory. -/
theorem walk_cons_eq_some_iff {part : List Char} {parts : List (List Char)} :
    store.walk location (part :: parts) = some place ↔
      store.node? location = some .directory ∧
        (Path.isIdle part = true ∨ part = ['.', '.'] ∨ Path.isName part = true) ∧
        store.walk (destination location [part]) parts = some place := by
  rw [Store.walk, destination]
  by_cases hdirectory : store.node? location = some .directory
  . rw [if_neg (not_not_intro hdirectory)]
    by_cases hidle : Path.isIdle part = true
    . simp [hdirectory, hidle, destination]
    by_cases hup : part = ['.', '.']
    . subst hup
      simp [hdirectory, hidle, destination]
    . simp [hdirectory, hidle, hup, destination]
  . simp [hdirectory]

/-- A path that leads somewhere still leads there when there are more directories. -/
theorem Grows.walk (h : store.Grows store') {parts : List (List Char)}
    (hwalk : store.walk location parts = some place) : store'.walk location parts = some place := by
  induction parts generalizing location with
  | nil => exact hwalk
  | cons part parts ih =>
    obtain ⟨hdirectory, hstep, hwalk⟩ := walk_cons_eq_some_iff.mp hwalk
    exact walk_cons_eq_some_iff.mpr ⟨h.directory _ hdirectory, hstep, ih hwalk⟩

theorem Grows.start (h : store.Grows store') (path : Path) : store'.start path = store.start path := by
  rw [Store.start, Store.start, h.here]

theorem Grows.locate? (h : store.Grows store') {path : Path}
    (hlocate : store.locate? path = some place) : store'.locate? path = some place := by
  unfold Store.locate? at hlocate ⊢
  split at hlocate
  . cases hlocate
  . next husable => rw [if_neg husable, h.start, h.walk hlocate]

theorem eq_destination_of_walk {parts : List (List Char)}
    (h : store.walk location parts = some place) : place = destination location parts := by
  induction parts generalizing location with
  | nil => exact (Option.some.inj h).symm
  | cons part parts ih =>
    obtain ⟨-, -, hwalk⟩ := walk_cons_eq_some_iff.mp h
    rw [ih hwalk, ← destination_append, List.singleton_append]

def target (store : Store) (path : Path) : Location :=
  destination (store.start path) (pieces (· == '/') path.toList)

theorem Grows.target (h : store.Grows store') (path : Path) :
    store'.target path = store.target path := by
  rw [Store.target, Store.target, h.start]

theorem eq_target_of_locate? {path : Path} (h : store.locate? path = some place) :
    place = store.target path := by
  unfold Store.locate? at h
  split at h
  . cases h
  . exact eq_destination_of_walk h

theorem exists_target_join (store : Store) (directory : Path) :
    ∃ base, ∀ path, Path.Descends path → store.target (Path.join directory path) =
      base ++ (pieces (· == '/') path.toList).map String.ofList := by
  obtain ⟨parts, hjoin⟩ := Path.exists_pieces_join directory
  refine ⟨destination (store.start directory) parts, fun path hpath => ?_⟩
  obtain ⟨habsolute, hpieces⟩ := hjoin path hpath.isAbsolute
  rw [Store.target, Store.start, habsolute, hpieces, destination_append,
    destination_of_isPlain hpath, Store.start]

/-- Different paths that lead downwards lead to different places. -/
theorem target_join_inj {directory path path' : Path} (hpath : Path.Descends path)
    (hpath' : Path.Descends path')
    (h : store.target (Path.join directory path) = store.target (Path.join directory path')) :
    path = path' := by
  obtain ⟨base, hbase⟩ := exists_target_join store directory
  rw [hbase path hpath, hbase path' hpath'] at h
  have hinj : Function.Injective String.ofList := fun _ _ => String.ofList_injective
  have hpieces := List.map_injective_iff.mpr hinj (List.append_cancel_left h)
  exact String.toList_inj.mp (eq_of_pieces_eq hpieces)

theorem keeps_put (hfree : store.node? location = none) (node : Node) :
    store.Keeps (store.put location node) where
  here := rfl
  node := by
    intro other node' hnode
    rw [node?_put]
    split
    . next heq =>
      rw [heq] at hnode
      exact hnode
    . split
      . next heq =>
        rw [heq, hfree] at hnode
        cases hnode
      . exact hnode

theorem keeps_makeWay (location : Location) (parts : List (List Char)) (store : Store) :
    store.Keeps (makeWay location parts store).2 := by
  fun_induction makeWay location parts store with
  | case1 => exact .refl _
  | case2 _ _ _ _ _ ih => exact ih
  | case3 _ _ _ _ ih => exact ih
  | case4 => exact .refl _
  | case5 _ _ _ _ _ _ _ _ _ ih => exact ih
  | case6 => exact .refl _
  | case7 location part parts store _ _ _ _ hfree ih => exact (keeps_put hfree _).trans ih

theorem keeps_makeDirectories (path : Path) (store : Store) :
    store.Keeps (makeDirectories path store).2 := by
  unfold makeDirectories
  split
  . exact keeps_makeWay _ _ _
  . exact .refl store

theorem wrote_writeText {path : Path} (h : writeText path content store = (true, store')) :
    ∃ location, store.locate? path = some location ∧ Wrote location content store store' := by
  unfold writeText at h
  split at h
  . cases h
  . next location hlocate =>
    split at h
    . cases h
    . next hfree =>
      rw [Prod.mk.injEq] at h
      refine ⟨location, hlocate, ?_⟩
      rw [← h.2]
      have hroot : location ≠ [] := by
        rintro rfl
        exact hfree rfl
      refine ⟨rfl, hfree, ?_, ?_⟩
      . rw [node?_put, if_neg hroot, if_pos rfl]
      . intro other node hne hnode
        rw [node?_put]
        split
        . next heq =>
          rw [heq] at hnode
          exact hnode
        . exact hnode

theorem readText?_eq_some {path : Path} (h : store.readText? path = some content) :
    ∃ location, store.locate? path = some location ∧
      store.node? location = some (.file content) := by
  unfold Store.readText? at h
  split at h
  . next content' hfind =>
    obtain ⟨location, hlocate, hnode⟩ := Option.bind_eq_some_iff.mp hfind
    cases h
    exact ⟨location, hlocate, hnode⟩
  . cases h

theorem readText?_of_node? {path : Path} (hlocate : store.locate? path = some location)
    (hnode : store.node? location = some (.file content)) : store.readText? path = some content := by
  rw [Store.readText?, Store.find?, hlocate, Option.bind_some, hnode]

end

end Store

end Facade.Files
