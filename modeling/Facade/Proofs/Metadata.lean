import Facade.Proofs.Slots
import Facade.Record.Reader

/-!
This module contains the proofs about metadata files: what is written for the records of a library is
read as these records, whatever is left out of it and whatever stands in for that.
-/

namespace Facade

open Data Outcome

namespace Record

def Modifier.item (m : Modifier) : Tree :=
  .text m.word

theorem inverts_modifier (format : Decode.Format) :
    Inverts (Decode.word format Modifier.words) Modifier.item := by
  intro m
  refine ⟨?_, Json.hasText_text _⟩
  cases m <;> rfl

theorem inverts_kind (format : Decode.Format) :
    Inverts (Decode.word format Kind.words) fun kind => .text kind.word := by
  intro kind
  refine ⟨?_, Json.hasText_text _⟩
  cases kind <;> rfl

section

variable {before a : α}

theorem restores_textSlot (name : String) (required : Bool) (get : α → String)
    (set : α → String → α) : (textSlot name required get set).Restores a before (set before (get a)) :=
  Slot.restores_of_invertsAt get set (Decode.inverts_text _) rfl fun _ => rfl

/-- A field that is left out when it is an empty list is restored if it is empty at first. -/
theorem restores_of_listValue? {slot : Slot α} {read : Tree → Decode β} {write : β → Tree}
    (get : α → List β) (set : α → List β → α) (hinverts : Inverts read write)
    (hvalue : slot.value? a = listValue? ((get a).map write)) (hrequired : slot.required = false)
    (hput : ∀ t, slot.put t before = Decode.list read t >>= fun values => .ok (set before values))
    (hempty : set before [] = before) : slot.Restores a before (set before (get a)) := by
  refine Slot.restores_of_list? get set (fun b _ => hinverts b) ?_ hrequired hput hempty
  rw [hvalue, listValue?, List.isEmpty_map]

theorem restores_stringsSlot (name : String) {get : α → List String} {set : α → List String → α}
    (hempty : set before [] = before) :
    (stringsSlot name get set).Restores a before (set before (get a)) :=
  restores_of_listValue? get set Decode.inverts_text rfl rfl (fun _ => rfl) hempty

theorem restores_recordsSlot (format : Decode.Format) (name : String) {shape : Shape β}
    (hshape : Inverts (shape.read format) shape.write) {get : α → List β} {set : α → List β → α}
    (hempty : set before [] = before) :
    (recordsSlot format name shape get set).Restores a before (set before (get a)) :=
  restores_of_listValue? get set hshape rfl rfl (fun _ => rfl) hempty

theorem restores_modifiersSlot (format : Decode.Format) {get : α → List Modifier}
    {set : α → List Modifier → α} (hempty : set before [] = before) :
    (modifiersSlot format get set fun modifiers => listValue? (modifierItems modifiers)).Restores a
      before (set before (get a)) :=
  restores_of_listValue? get set (inverts_modifier format) rfl rfl (fun _ => rfl) hempty

/-- Modifiers that are written in any case are restored, also where some are assumed at first. -/
theorem restores_modifiersSlot_of_some (format : Decode.Format) {get : α → List Modifier}
    {set : α → List Modifier → α} :
    (modifiersSlot format get set fun modifiers =>
      some (.ofItems (modifierItems modifiers))).Restores a before (set before (get a)) :=
  Slot.restores_of_invertsAt get set (Decode.inverts_list (inverts_modifier format) _) rfl fun _ => rfl

end

theorem Parameter.inverts (format : Decode.Format) :
    Inverts (Parameter.shape.read format) Parameter.shape.write := by
  refine Shape.inverts (by decide) (fun p => ?_) format
  apply Restore.next (restores_textSlot ..)
  apply Restore.next (restores_textSlot ..)
  apply Restore.next (restores_stringsSlot _ rfl)
  exact .done p

theorem Field.inverts (format : Decode.Format) :
    Inverts ((Field.shape format).read format) (Field.shape format).write := by
  refine Shape.inverts (by cases format <;> decide) (fun f => ?_) format
  apply Restore.next (restores_textSlot ..)
  apply Restore.next (restores_textSlot ..)
  apply Restore.next (restores_modifiersSlot format rfl)
  apply Restore.next (restores_stringsSlot _ rfl)
  exact .done f

theorem Constructor.inverts (format : Decode.Format) :
    Inverts ((Constructor.shape format).read format) (Constructor.shape format).write := by
  refine Shape.inverts (by cases format <;> decide) (fun c => ?_) format
  apply Restore.next (Slot.restores_of_invertsAt Constructor.parameters
    (fun c parameters => { c with parameters }) (Decode.inverts_list (Parameter.inverts format) _) rfl
    fun _ => rfl)
  apply Restore.next (restores_modifiersSlot_of_some format)
  exact .done c

theorem Method.inverts (format : Decode.Format) :
    Inverts ((Method.shape format).read format) (Method.shape format).write := by
  refine Shape.inverts (by cases format <;> decide) (fun m => ?_) format
  apply Restore.next (restores_textSlot ..)
  apply Restore.next (restores_textSlot ..)
  apply Restore.next (restores_recordsSlot format _ (Parameter.inverts format) rfl)
  apply Restore.next (restores_stringsSlot _ rfl)
  apply Restore.next (restores_stringsSlot _ rfl)
  apply Restore.next (restores_modifiersSlot_of_some format)
  exact .done m

theorem inverts (format : Decode.Format) :
    Inverts ((shape format).read format) (shape format).write := by
  refine Shape.inverts (by cases format <;> decide) (fun r => ?_) format
  apply Restore.next (restores_textSlot ..)
  apply Restore.next (Slot.restores_of_invertsAt Record.kind (fun r kind => { r with kind })
    (inverts_kind format _) rfl fun _ => rfl)
  apply Restore.next (restores_stringsSlot _ rfl)
  apply Restore.next (restores_modifiersSlot format rfl)
  apply Restore.next (restores_recordsSlot format _ (Field.inverts format) rfl)
  apply Restore.next (restores_recordsSlot format _ (Constructor.inverts format) rfl)
  apply Restore.next (restores_recordsSlot format _ (Method.inverts format) rfl)
  exact .done r

end Record

namespace Metadata

open Record

theorem inverts (format : Decode.Format) :
    Inverts ((shape format).read format) (shape format).write := by
  refine Shape.inverts (by cases format <;> decide) (fun m => ?_) format
  apply Restore.next (Slot.restores_of_invertsAt Metadata.classes (fun m classes => { m with classes })
    (Decode.inverts_list (Record.inverts format) _) rfl fun _ => rfl)
  exact .done m

/-- A metadata file that is written for some records is read as these records, and so is every other
file that differs from it in white space only. -/
theorem parse_write (metadata : Metadata) :
    parse .json (Json.write ((shape .json).write metadata)) = .ok metadata ∧
      ∀ text, Json.IsTextOf ((shape .json).write metadata) text → parse .json text = .ok metadata := by
  obtain ⟨hread, htext⟩ := inverts .json metadata
  have hparse : ∀ text, Json.IsTextOf ((shape .json).write metadata) text →
      parse .json text = .ok metadata := by
    intro text h
    rw [parse, Json.decodeText_of_isTextOf hread h]
  exact ⟨hparse _ (Json.isTextOf_write htext), hparse⟩

end Metadata

end Facade
