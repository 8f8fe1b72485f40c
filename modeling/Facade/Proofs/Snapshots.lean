import Facade.Batch.Snapshot
import Facade.Json.Explain
import Facade.Proofs.Slots

/-!
This module contains the proofs about what is handed on of a batch: the description of a class is read
back from what is written for it, however deep its types are nested, and so are the descriptions in a
snapshot.
-/

namespace Facade

open Data Outcome

namespace Data.Tree

theorem depth_pos (t : Tree) : 0 < t.depth := by
  unfold depth
  split <;> exact Nat.succ_pos _

theorem depth_lt_ofItems {t : Tree} {items : List Tree} (h : t ∈ items) :
    t.depth < (ofItems items).depth := by
  rw [ofItems, depth, Nat.lt_succ_iff]
  induction items with
  | nil => cases h
  | cons other items ih =>
    rw [depthOfItems]
    cases h with
    | head => exact Nat.le_max_left _ _
    | tail _ h => exact Nat.le_trans (ih h) (Nat.le_max_right _ _)

theorem depth_lt_ofEntries {name : String} {t : Tree} {entries : List (String × Tree)}
    (h : (name, t) ∈ entries) : t.depth < (ofEntries entries).depth := by
  rw [ofEntries, depth, Nat.lt_succ_iff]
  induction entries with
  | nil => cases h
  | cons other entries ih =>
    rw [depthOfEntries]
    cases h with
    | head => exact Nat.le_max_left _ _
    | tail _ h => exact Nat.le_trans (ih h) (Nat.le_max_right _ _)

end Data.Tree

namespace Host

namespace HostType

theorem inverts_kind : Inverts (Decode.word .json TypeKind.words) fun kind => .text kind.word := by
  intro kind
  refine ⟨?_, Json.hasText_text _⟩
  cases kind <;> rfl

theorem writeAll_eq (ts : List HostType) : writeAll ts = ts.map write := by
  induction ts with
  | nil => rfl
  | cons t ts ih => rw [writeAll, ih, List.map_cons]

theorem shape_write (argument : Tree → Decode HostType) : (shape argument).write = write := by
  funext t
  obtain ⟨kind, name, arguments, nullable⟩ := t
  rw [write, writeAll_eq]
  cases arguments with
  | nil => rfl
  | cons t ts => rfl

theorem depth_argument {t u : HostType} (h : u ∈ t.arguments) : u.write.depth < t.write.depth := by
  obtain ⟨kind, name, arguments, nullable⟩ := t
  have hentry : ("type_arguments", Tree.ofItems (arguments.map write)) ∈
      [("kind", Tree.text kind.word), ("name", .text name)] ++
        (if arguments.isEmpty then [] else [("type_arguments", .ofItems (arguments.map write))]) ++
        [("nullable", .flag nullable)] := by
    rw [if_neg (by rw [List.isEmpty_iff]; exact List.ne_nil_of_mem h)]
    simp
  rw [write, writeAll_eq]
  exact Nat.lt_trans (Tree.depth_lt_ofItems (List.mem_map_of_mem h)) (Tree.depth_lt_ofEntries hentry)

theorem restore {argument : Tree → Decode HostType} {t : HostType}
    (h : ∀ u ∈ t.arguments, InvertsAt argument write u) :
    Restore t (shape argument).slots (shape argument).blank t := by
  apply Restore.next (Slot.restores_of_invertsAt kind
    (fun t kind => .mk kind t.name t.arguments t.nullable) (inverts_kind _) rfl fun _ => rfl)
  apply Restore.next (Slot.restores_of_invertsAt name
    (fun t name => .mk t.kind name t.arguments t.nullable) (Decode.inverts_text _) rfl fun _ => rfl)
  apply Restore.next (Slot.restores_of_list? arguments
    (fun t arguments => .mk t.kind t.name arguments t.nullable) h rfl rfl (fun _ => rfl) rfl)
  apply Restore.next (Slot.restores_of_invertsAt nullable
    (fun t nullable => .mk t.kind t.name t.arguments nullable) (Decode.inverts_flag _) rfl
    fun _ => rfl)
  obtain ⟨kind, name, arguments, nullable⟩ := t
  exact .done _

/-- A depth that is enough for what is written for a type is enough to read the type back. -/
theorem invertsAt_readTo {depth : Nat} {t : HostType} (h : t.write.depth ≤ depth) :
    InvertsAt (readTo depth) write t := by
  induction depth generalizing t with
  | zero => exact absurd (Tree.depth_pos t.write) (Nat.not_lt.mpr h)
  | succ depth ih =>
    have harguments : ∀ u ∈ t.arguments, InvertsAt (readTo depth) write u :=
      fun u hu => ih (Nat.le_of_lt_succ (Nat.lt_of_lt_of_le (depth_argument hu) h))
    have hshape : InvertsAt ((shape (readTo depth)).read .json) (shape (readTo depth)).write t :=
      Shape.invertsAt (by simp [shape]) (restore harguments) .json
    rw [shape_write] at hshape
    exact hshape

theorem inverts : Inverts read write :=
  fun t => invertsAt_readTo (Nat.le_refl t.write.depth)

end HostType

namespace HostClass

theorem Field.inverts : Inverts (Field.shape.read .json) Field.shape.write := by
  refine Shape.inverts (by decide) (fun f => ?_) .json
  apply Restore.next (Slot.restores_of_invertsAt Field.name (fun f name => { f with name })
    (Decode.inverts_text _) rfl fun _ => rfl)
  apply Restore.next (Slot.restores_of_invertsAt Field.type (fun f type => { f with type })
    (HostType.inverts _) rfl fun _ => rfl)
  apply Restore.next (Slot.restores_of_invertsAt Field.isFinal (fun f isFinal => { f with isFinal })
    (Decode.inverts_flag _) rfl fun _ => rfl)
  apply Restore.next (Slot.restores_of_invertsAt Field.hasGetter
    (fun f hasGetter => { f with hasGetter }) (Decode.inverts_flag _) rfl fun _ => rfl)
  apply Restore.next (Slot.restores_of_invertsAt Field.hasSetter
    (fun f hasSetter => { f with hasSetter }) (Decode.inverts_flag _) rfl fun _ => rfl)
  exact .done f

theorem Parameter.inverts : Inverts (Parameter.shape.read .json) Parameter.shape.write := by
  refine Shape.inverts (by decide) (fun p => ?_) .json
  apply Restore.next (Slot.restores_of_invertsAt Parameter.name (fun p name => { p with name })
    (Decode.inverts_text _) rfl fun _ => rfl)
  apply Restore.next (Slot.restores_of_invertsAt Parameter.type (fun p type => { p with type })
    (HostType.inverts _) rfl fun _ => rfl)
  exact .done p

theorem Constructor.inverts : Inverts (Constructor.shape.read .json) Constructor.shape.write := by
  refine Shape.inverts (by decide) (fun c => ?_) .json
  apply Restore.next (Slot.restores_of_invertsAt Constructor.parameters
    (fun c parameters => { c with parameters }) (Decode.inverts_list Parameter.inverts _) rfl
    fun _ => rfl)
  exact .done c

theorem Method.inverts : Inverts (Method.shape.read .json) Method.shape.write := by
  refine Shape.inverts (by decide) (fun m => ?_) .json
  apply Restore.next (Slot.restores_of_invertsAt Method.name (fun m name => { m with name })
    (Decode.inverts_text _) rfl fun _ => rfl)
  apply Restore.next (Slot.restores_of_invertsAt Method.parameters
    (fun m parameters => { m with parameters }) (Decode.inverts_list HostType.inverts _) rfl
    fun _ => rfl)
  apply Restore.next (Slot.restores_of_invertsAt Method.returns (fun m returns => { m with returns })
    (HostType.inverts _) rfl fun _ => rfl)
  apply Restore.next (Slot.restores_of_list? Method.throws (fun m throws => { m with throws })
    (fun s _ => Decode.inverts_text s) rfl rfl (fun _ => rfl) rfl)
  apply Restore.next (Slot.restores_of_invertsAt Method.field (fun m field => { m with field })
    (Decode.inverts_text? _) rfl fun _ => rfl)
  exact .done m

theorem inverts : Inverts (shape.read .json) shape.write := by
  refine Shape.inverts (by decide) (fun c => ?_) .json
  apply Restore.next (Slot.restores_of_invertsAt HostClass.name (fun c name => { c with name })
    (Decode.inverts_text _) rfl fun _ => rfl)
  apply Restore.next (Slot.restores_of_invertsAt HostClass.fields (fun c fields => { c with fields })
    (Decode.inverts_list Field.inverts _) rfl fun _ => rfl)
  apply Restore.next (Slot.restores_of_invertsAt HostClass.constructors
    (fun c constructors => { c with constructors }) (Decode.inverts_list Constructor.inverts _) rfl
    fun _ => rfl)
  apply Restore.next (Slot.restores_of_invertsAt HostClass.getters
    (fun c getters => { c with getters }) (Decode.inverts_list Method.inverts _) rfl fun _ => rfl)
  apply Restore.next (Slot.restores_of_invertsAt HostClass.setters
    (fun c setters => { c with setters }) (Decode.inverts_list Method.inverts _) rfl fun _ => rfl)
  apply Restore.next (Slot.restores_of_invertsAt HostClass.isEnum (fun c isEnum => { c with isEnum })
    (Decode.inverts_flag _) rfl fun _ => rfl)
  apply Restore.next (Slot.restores_of_invertsAt HostClass.constants
    (fun c constants => { c with constants }) (Decode.inverts_list Decode.inverts_text _) rfl
    fun _ => rfl)
  exact .done c

end HostClass

end Host

section

open Json

theorem Refusal.hasText_tree (refusal : Refusal) : HasText refusal.tree := by
  apply hasText_ofEntries
  cases refusal with
  | flawed member flaw => simp [hasText_text]
  | unresolved member type => simp [hasText_text]
  | clash name cause => simp [hasText_text]

theorem Failure.hasText_tree (failure : Failure) : HasText failure.tree := by
  apply hasText_ofEntries
  rw [List.forall_mem_cons, List.forall_mem_singleton]
  exact ⟨hasText_text _, failure.refusal.hasText_tree⟩

namespace Catalog

theorem Entry.hasText_tree (e : Entry) : HasText e.tree := by
  apply hasText_ofEntries
  simp [hasText_text, hasText_flag]

theorem hasText_tree (catalog : Catalog) : HasText catalog.tree := by
  apply hasText_ofEntries
  rw [List.forall_mem_cons, List.forall_mem_singleton]
  constructor
  . apply hasText_ofEntries
    rw [List.forall_mem_map]
    exact fun e _ => e.2.hasText_tree
  . apply hasText_ofEntries
    rw [List.forall_mem_map]
    exact fun e _ => hasText_text e.2

end Catalog

namespace Batch

open Host

theorem Notice.hasText_tree (n : Notice) : HasText n.tree := by
  apply hasText_ofEntries
  simp [hasText_text, hasText_ofString?]

namespace Snapshot

theorem hasText_tree (s : Snapshot) : HasText s.tree := by
  have hclasses : ∀ classes : List HostClass, HasText (.ofItems (classes.map HostClass.shape.write)) :=
    fun classes => (Decode.inverts_list HostClass.inverts classes).2
  have hfailures : HasText (.ofItems (s.failures.map Failure.tree)) := by
    apply hasText_ofItems
    rw [List.forall_mem_map]
    exact fun failure _ => failure.hasText_tree
  have hnotices : HasText (.ofItems (s.notices.map Notice.tree)) := by
    apply hasText_ofItems
    rw [List.forall_mem_map]
    exact fun n _ => n.hasText_tree
  apply hasText_ofEntries
  simp only [List.forall_mem_append, List.forall_mem_map, List.forall_mem_cons,
    List.not_mem_nil, false_imp_iff, implies_true, and_true]
  refine ⟨⟨⟨hasText_text _, ?_⟩, fun catalog _ => catalog.hasText_tree⟩, hfailures, hnotices⟩
  intro t ht
  obtain ⟨classes, -, rfl⟩ := Option.map_eq_some_iff.mp (Option.mem_toList.mp ht)
  exact hclasses classes

/-- Reads the descriptions of classes that a snapshot has, if it has any. -/
def readClasses : Tree → Decode (Option (List HostClass))
  | .table entries _ =>
    match entries.lookup "classes" with
    | none => .ok none
    | some t => (Decode.list (HostClass.shape.read .json) t).map some
  | t => Decode.otherKind "a map" t

theorem readClasses_tree (s : Snapshot) : readClasses s.tree = .ok s.classes := by
  obtain ⟨stage, classes, catalog, failures, notices⟩ := s
  -- The entry of the classes stands behind that of the stage, if there is one.
  cases classes with
  | none =>
    cases catalog with
    | none => rfl
    | some catalog => rfl
  | some classes =>
    have hlist := (Decode.inverts_list HostClass.inverts classes).1
    exact congrArg (Except.map some) hlist

end Snapshot

end Batch

end

end Facade
