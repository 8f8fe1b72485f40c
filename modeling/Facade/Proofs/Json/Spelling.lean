import Facade.Json.Reader
import Facade.Json.Writer

/-!
This module contains the texts that spell a value: JSON leaves open where white space stands between
the parts of a value. What the writer writes is one of these texts.
-/

namespace Facade.Json

open Data

def IsSpace (cs : List Char) : Prop :=
  ∀ c ∈ cs, Cursor.isSpace c = true

def Leads : Turn → List Char → Prop
  | .first, cs => IsSpace cs
  | .later, cs => ∃ before behind, IsSpace before ∧ IsSpace behind ∧ cs = before ++ ',' :: behind

def Links (cs : List Char) : Prop :=
  ∃ before behind, IsSpace before ∧ IsSpace behind ∧ cs = before ++ ':' :: behind

mutual

/-- Whether a text spells a value. Numbers and values that broke off are left out. -/
def Spells : Tree → List Char → Prop
  | .null, cs => cs = "null".toList
  | .flag true, cs => cs = "true".toList
  | .flag false, cs => cs = "false".toList
  | .integer _, _ => False
  | .decimal _, _ => False
  | .text s, cs => cs = (stringText s).toList
  | .list items true, cs => ∃ inner, SpellsItems .first items inner ∧ cs = '[' :: inner
  | .list _ false, _ => False
  | .table entries true, cs => ∃ inner, SpellsEntries .first entries inner ∧ cs = '\x7b' :: inner
  | .table _ false, _ => False
  | .gap, _ => False

def SpellsItems : Turn → List Tree → List Char → Prop
  | _, [], cs => ∃ blanks, IsSpace blanks ∧ cs = blanks ++ [']']
  | turn, t :: ts, cs => ∃ lead item rest, Leads turn lead ∧ Spells t item ∧
      SpellsItems .later ts rest ∧ cs = lead ++ (item ++ rest)

def SpellsEntries : Turn → List (String × Tree) → List Char → Prop
  | _, [], cs => ∃ blanks, IsSpace blanks ∧ cs = blanks ++ ['\x7d']
  | turn, (key, t) :: entries, cs => ∃ lead link value rest, Leads turn lead ∧ Links link ∧
      Spells t value ∧ SpellsEntries .later entries rest ∧
        cs = lead ++ ((stringText key).toList ++ (link ++ (value ++ rest)))

end

/-- Whether a text says that it is a value, and nothing else. -/
def IsTextOf (t : Tree) (text : String) : Prop :=
  ∃ before cs behind, IsSpace before ∧ Spells t cs ∧ IsSpace behind ∧
    text.toList = before ++ (cs ++ behind)

def HasText (t : Tree) : Prop :=
  ∃ cs, Spells t cs

theorem isSpace_nil : IsSpace [] :=
  List.forall_mem_nil _

theorem isSpace_lineBreak (level : Nat) : IsSpace (lineBreak level).toList := by
  intro c hc
  rw [lineBreak, String.toList_ofList, List.mem_cons, List.mem_replicate] at hc
  obtain rfl | ⟨-, rfl⟩ := hc
  . rfl
  . rfl

theorem leads_lineBreak (level : Nat) : Leads .later ("," ++ lineBreak level).toList :=
  ⟨[], (lineBreak level).toList, isSpace_nil, isSpace_lineBreak level, by rw [String.toList_append]; rfl⟩

theorem links_space : Links ": ".toList :=
  ⟨[], [' '], isSpace_nil, by simp [IsSpace, Cursor.isSpace], rfl⟩

theorem exists_leads (turn : Turn) : ∃ lead, Leads turn lead := by
  cases turn with
  | first => exact ⟨[], isSpace_nil⟩
  | later => exact ⟨_, leads_lineBreak 0⟩

theorem hasText_text (s : String) : HasText (.text s) :=
  ⟨_, rfl⟩

theorem hasText_flag (b : Bool) : HasText (.flag b) := by
  cases b with
  | false => exact ⟨_, rfl⟩
  | true => exact ⟨_, rfl⟩

theorem hasText_ofString? (s : Option String) : HasText (.ofString? s) := by
  cases s with
  | none => exact ⟨_, rfl⟩
  | some s => exact hasText_text s

theorem hasText_ofItems {items : List Tree} (h : ∀ t ∈ items, HasText t) :
    HasText (.ofItems items) := by
  have hspells : ∀ turn, ∃ cs, SpellsItems turn items cs := by
    induction items with
    | nil => exact fun _ => ⟨_, [], isSpace_nil, rfl⟩
    | cons t ts ih =>
      rw [List.forall_mem_cons] at h
      obtain ⟨item, hitem⟩ := h.1
      obtain ⟨rest, hrest⟩ := ih h.2 .later
      intro turn
      obtain ⟨lead, hlead⟩ := exists_leads turn
      exact ⟨_, lead, item, rest, hlead, hitem, hrest, rfl⟩
  obtain ⟨inner, hinner⟩ := hspells .first
  exact ⟨_, inner, hinner, rfl⟩

theorem hasText_ofEntries {entries : List (String × Tree)} (h : ∀ e ∈ entries, HasText e.2) :
    HasText (.ofEntries entries) := by
  have hspells : ∀ turn, ∃ cs, SpellsEntries turn entries cs := by
    induction entries with
    | nil => exact fun _ => ⟨_, [], isSpace_nil, rfl⟩
    | cons e entries ih =>
      rw [List.forall_mem_cons] at h
      obtain ⟨value, hvalue⟩ := h.1
      obtain ⟨rest, hrest⟩ := ih h.2 .later
      intro turn
      obtain ⟨lead, hlead⟩ := exists_leads turn
      exact ⟨_, lead, _, value, rest, hlead, links_space, hvalue, hrest, rfl⟩
  obtain ⟨inner, hinner⟩ := hspells .first
  exact ⟨_, inner, hinner, rfl⟩

mutual

/-- What is written for a value spells it, if anything does. -/
theorem spells_writeAt (level : Nat) (t : Tree) {cs : List Char} (h : Spells t cs) :
    Spells t (writeAt level t).toList := by
  match t with
  | .null => rfl
  | .flag true => rfl
  | .flag false => rfl
  | .text _ => rfl
  | .list [] true => exact ⟨[']'], ⟨[], isSpace_nil, rfl⟩, by simp [writeAt]⟩
  | .list (t :: ts) true =>
    obtain ⟨_, ⟨-, item, rest, -, hitem, hrest, -⟩, -⟩ := h
    refine ⟨_, ⟨(lineBreak (level + 1)).toList, _, _, isSpace_lineBreak _,
      spells_writeAt (level + 1) t hitem, spellsItems_writeItems level ts hrest, rfl⟩, ?_⟩
    simp [writeAt]
  | .table [] true => exact ⟨['\x7d'], ⟨[], isSpace_nil, rfl⟩, by simp [writeAt]⟩
  | .table ((key, t) :: entries) true =>
    obtain ⟨_, ⟨-, -, value, rest, -, -, hvalue, hrest, -⟩, -⟩ := h
    refine ⟨_, ⟨(lineBreak (level + 1)).toList, _, _, _, isSpace_lineBreak _, links_space,
      spells_writeAt (level + 1) t hvalue, spellsEntries_writeEntries level entries hrest, rfl⟩, ?_⟩
    simp [writeAt]

theorem spellsItems_writeItems (level : Nat) (ts : List Tree) {cs : List Char}
    (h : SpellsItems .later ts cs) : SpellsItems .later ts ((writeItems level ts).toList ++ [']']) := by
  match ts with
  | [] => exact ⟨_, isSpace_lineBreak level, rfl⟩
  | t :: ts =>
    obtain ⟨-, item, rest, -, hitem, hrest, -⟩ := h
    refine ⟨_, _, _, leads_lineBreak (level + 1), spells_writeAt (level + 1) t hitem,
      spellsItems_writeItems level ts hrest, ?_⟩
    simp [writeItems]

theorem spellsEntries_writeEntries (level : Nat) (entries : List (String × Tree)) {cs : List Char}
    (h : SpellsEntries .later entries cs) :
    SpellsEntries .later entries ((writeEntries level entries).toList ++ ['\x7d']) := by
  match entries with
  | [] => exact ⟨_, isSpace_lineBreak level, rfl⟩
  | (key, t) :: entries =>
    obtain ⟨-, -, value, rest, -, -, hvalue, hrest, -⟩ := h
    refine ⟨_, _, _, _, leads_lineBreak (level + 1), links_space,
      spells_writeAt (level + 1) t hvalue, spellsEntries_writeEntries level entries hrest, ?_⟩
    simp [writeEntries]

end

theorem isTextOf_write {t : Tree} (h : HasText t) : IsTextOf t (write t) := by
  obtain ⟨cs, hcs⟩ := h
  exact ⟨[], _, [], isSpace_nil, spells_writeAt 0 t hcs, isSpace_nil, by simp [write]⟩

end Facade.Json
