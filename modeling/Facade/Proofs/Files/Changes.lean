import Facade.Proofs.Files.Store

/-!
This module contains the proofs about all that the making of directories and the writing of files may
change in a store, also where that fails half way.
-/

namespace Facade.Files.Store

open Text

/-- What may have become of what is at a place when files with certain texts were written, and the
directories on a way were made. -/
inductive Fate (onWay : Location → Prop) (files : List (Location × String)) (location : Location) :
    (before after : Option Node) → Prop where
  | kept (node : Option Node) : Fate onWay files location node node
  /-- A directory is made only where nothing is. -/
  | made : onWay location → Fate onWay files location none (some .directory)
  /-- A file is written only where no directory is. -/
  | written {before : Option Node} {content : String} : before ≠ some .directory →
    (location, content) ∈ files → Fate onWay files location before (some (.file content))

/-- Whether one store has come of another by the writing of some of these files, and the making of
directories that are on a way. -/
structure Becomes (onWay : Location → Prop) (files : List (Location × String)) (store after : Store) :
    Prop where
  here : after.here = store.here
  fate : ∀ location, Fate onWay files location (store.node? location) (after.node? location)

section

variable {onWay onWay' : Location → Prop} {files files' : List (Location × String)}
  {location : Location} {store between after : Store}

theorem Fate.trans {a b c : Option Node} (h : Fate onWay files location a b)
    (h' : Fate onWay files location b c) : Fate onWay files location a c := by
  cases h' with
  | kept => exact h
  | made hway =>
    -- There was nothing at the place, and so there was nothing before.
    cases h with
    | kept => exact .made hway
  | written hfree hfile =>
    cases h with
    | kept => exact .written hfree hfile
    | made => exact absurd rfl hfree
    | written hfree' _ => exact .written hfree' hfile

theorem Fate.mono {a b : Option Node} (h : Fate onWay files location a b)
    (hway : ∀ location, onWay location → onWay' location) (hfiles : files ⊆ files') :
    Fate onWay' files' location a b := by
  cases h with
  | kept => exact .kept _
  | made hon => exact .made (hway _ hon)
  | written hfree hfile => exact .written hfree (hfiles hfile)

namespace Becomes

theorem refl (store : Store) : Becomes onWay files store store :=
  ⟨rfl, fun _ => .kept _⟩

theorem trans (h : Becomes onWay files store between) (h' : Becomes onWay files between after) :
    Becomes onWay files store after :=
  ⟨h'.here.trans h.here, fun location => (h.fate location).trans (h'.fate location)⟩

theorem mono (h : Becomes onWay files store after)
    (hway : ∀ location, onWay location → onWay' location) (hfiles : files ⊆ files') :
    Becomes onWay' files' store after :=
  ⟨h.here, fun location => (h.fate location).mono hway hfiles⟩

theorem grows (h : Becomes onWay files store after) : store.Grows after where
  here := h.here
  directory := by
    intro location hdirectory
    have hfate := h.fate location
    rw [hdirectory] at hfate
    generalize after.node? location = node at hfate
    cases hfate with
    | kept => rfl
    | written hfree _ => exact absurd rfl hfree

theorem node?_of_not_mem (h : Becomes onWay files store after) {node : Node}
    (hnode : store.node? location = some node) (hfiles : location ∉ files.map Prod.fst) :
    after.node? location = some node := by
  have hfate := h.fate location
  rw [hnode] at hfate
  generalize after.node? location = node' at hfate
  cases hfate with
  | kept => rfl
  | written _ hfile => exact absurd (List.mem_map_of_mem hfile) hfiles

end Becomes

/-- Whether a path leads through a place if nothing is in the way. -/
def Passes (store : Store) (path : Path) (location : Location) : Prop :=
  ∃ n, location = destination (store.start path) ((pieces (· == '/') path.toList).take n)

theorem Grows.passes (h : store.Grows after) (path : Path) :
    after.Passes path = store.Passes path := by
  unfold Passes
  rw [h.start]

theorem fate_put (hfree : store.node? location = none) (hway : onWay location) (other : Location) :
    Fate onWay files other (store.node? other) ((store.put location .directory).node? other) := by
  rw [node?_put]
  split
  . next hroot =>
    rw [hroot]
    exact .kept _
  . split
    . next heq =>
      rw [heq, hfree]
      exact .made hway
    . exact .kept _

theorem here_makeWay (location : Location) (parts : List (List Char)) (store : Store) :
    (makeWay location parts store).2.here = store.here :=
  (keeps_makeWay location parts store).here

theorem fate_makeWay (location : Location) (parts : List (List Char)) (store : Store)
    (hway : ∀ n, onWay (destination location (parts.take n))) (other : Location) :
    Fate onWay files other (store.node? other)
      ((makeWay location parts store).2.node? other) := by
  fun_induction makeWay location parts store with
  | case1 => exact .kept _
  | case2 location part parts store hidle ih =>
    apply ih
    intro n
    simpa [destination, hidle] using hway (n + 1)
  | case3 location parts store hidle ih =>
    apply ih
    intro n
    simpa [destination, hidle] using hway (n + 1)
  | case4 => exact .kept _
  | case5 location part parts store hidle hup hname next hdirectory ih =>
    apply ih
    intro n
    simpa [destination, hidle, hup] using hway (n + 1)
  | case6 => exact .kept _
  | case7 location part parts store hidle hup hname next hfree ih =>
    have hnext : onWay next := by simpa [destination, hidle, hup] using hway 1
    apply (fate_put hfree hnext other).trans
    apply ih
    intro n
    simpa [destination, hidle, hup] using hway (n + 1)

theorem becomes_makeDirectories (path : Path) (store : Store) :
    Becomes (store.Passes path) files store (makeDirectories path store).2 := by
  unfold makeDirectories
  split
  . exact ⟨here_makeWay _ _ _, fate_makeWay _ _ _ fun n => ⟨n, rfl⟩⟩
  . exact .refl store

theorem becomes_writeText (path : Path) (content : String) (store : Store) :
    Becomes onWay [(store.target path, content)] store (writeText path content store).2 := by
  unfold writeText
  split
  . exact .refl store
  . next location hlocate =>
    split
    . exact .refl store
    . next hfree =>
      refine ⟨rfl, fun other => ?_⟩
      dsimp only
      rw [node?_put]
      split
      . next hroot =>
        rw [hroot]
        exact .kept _
      . split
        . next heq =>
          rw [heq]
          exact .written hfree (by rw [eq_target_of_locate? hlocate]; exact List.mem_singleton_self _)
        . exact .kept _

theorem Becomes.node?_eq (h : Becomes onWay files store after)
    (hway : ∀ location, onWay location → store.node? location = some .directory)
    (hfiles : ∀ location content, (location, content) ∈ files →
      store.node? location = some (.file content)) (location : Location) :
    after.node? location = store.node? location := by
  have hfate := h.fate location
  generalize hbefore : store.node? location = before at hfate
  generalize after.node? location = node at hfate
  cases hfate with
  | kept => rfl
  | made hon =>
    rw [hway location hon] at hbefore
    cases hbefore
  | written _ hfile => exact (hfiles location _ hfile).symm.trans hbefore

theorem readText?_congr (hhere : after.here = store.here)
    (hnode : ∀ location, after.node? location = store.node? location) (path : Path) :
    after.readText? path = store.readText? path := by
  have hgrows : store.Grows after := ⟨hhere, fun location h => (hnode location).trans h⟩
  have hgrows' : after.Grows store := ⟨hhere.symm, fun location h => (hnode location).symm.trans h⟩
  ext content
  constructor
  . intro h
    obtain ⟨location, hlocate, hfile⟩ := readText?_eq_some h
    exact readText?_of_node? (hgrows'.locate? hlocate) ((hnode location).symm.trans hfile)
  . intro h
    obtain ⟨location, hlocate, hfile⟩ := readText?_eq_some h
    exact readText?_of_node? (hgrows.locate? hlocate) ((hnode location).trans hfile)

/-- All that a walk comes through on its way is directories. -/
theorem directory_of_walk {parts rest : List (List Char)} {part : List Char} {place : Location}
    (h : store.walk location (parts ++ part :: rest) = some place) (n : Nat) :
    store.node? (destination location (parts.take n)) = some .directory := by
  induction parts generalizing location n with
  | nil =>
    rw [List.take_nil]
    exact (walk_cons_eq_some_iff.mp h).1
  | cons p parts ih =>
    obtain ⟨hdirectory, -, hwalk⟩ := walk_cons_eq_some_iff.mp h
    cases n with
    | zero => exact hdirectory
    | succ n =>
      rw [List.take_succ_cons, ← List.singleton_append, destination_append]
      exact ih hwalk n

/-- If a path leads to something in a directory, then all that is on the way to this directory is
directories. -/
theorem directory_of_passes {directory path : Path} {place : Location}
    (hpath : Path.isAbsolute path = false) (hdirectory : directory ≠ "")
    (hend : directory.toList.getLast? ≠ some '/')
    (h : store.locate? (Path.join directory path) = some place)
    (hpasses : store.Passes directory location) : store.node? location = some .directory := by
  obtain ⟨n, rfl⟩ := hpasses
  have hjoin : Path.join directory path = directory ++ ("/" ++ path) := by
    simp [Path.join, hpath, hdirectory, hend, String.append_assoc]
  have hstart : store.start (Path.join directory path) = store.start directory := by
    rw [start, start, hjoin, Path.isAbsolute_append hdirectory]
  obtain ⟨part, rest, hpieces⟩ := exists_pieces (· == '/') path.toList
  unfold Store.locate? at h
  split at h
  . cases h
  . rw [hstart, Path.pieces_join hpath hdirectory hend, hpieces] at h
    exact directory_of_walk h n

end

end Facade.Files.Store
