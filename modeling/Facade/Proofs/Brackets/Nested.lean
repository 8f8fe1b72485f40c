import Facade.Proofs.References

/-!
This module contains what it means that the brackets in a text are nested, and the ways in which nested
texts are put together.
-/

namespace Facade.Text

@[simp]
def closing? (c : Char) : Option Char :=
  if c = '(' then some ')'
  else if c = '[' then some ']'
  else if c = '\x7b' then some '\x7d'
  else none

@[simp]
def isClosing (c : Char) : Bool :=
  c == ')' || c == ']' || c == '\x7d'

def brackets : List Char :=
  ['(', ')', '[', ']', '\x7b', '\x7d']

/-- The brackets that are awaited behind a character, the next one first. A closing bracket has to be
the one that is awaited next. -/
@[simp]
def await (awaited : List Char) (c : Char) : Option (List Char) :=
  match closing? c with
  | some close => some (close :: awaited)
  | none =>
    if isClosing c then
      match awaited with
      | next :: rest => if c = next then some rest else none
      | [] => none
    else some awaited

/-- The brackets that are awaited behind a text, if none in it comes unawaited. -/
def scan (awaited text : List Char) : Option (List Char) :=
  text.foldlM await awaited

/-- Whether the brackets in a text are nested: each is closed by one of its kind, before those are
closed that were opened earlier. -/
def Nested (text : String) : Prop :=
  scan [] text.toList = some []

instance (text : String) : Decidable (Nested text) :=
  inferInstanceAs (Decidable (_ = _))

def Bare (text : String) : Prop :=
  ∀ c ∈ text.toList, c ∉ brackets

instance (text : String) : Decidable (Bare text) :=
  List.decidableBAll (· ∉ brackets) text.toList

theorem forall_brackets {P : Char → Prop} [DecidablePred P]
    (h : (brackets.all fun c => decide (P c)) = true) : ∀ c ∈ brackets, P c := by
  simpa only [List.all_eq_true, decide_eq_true_eq] using h

@[simp]
theorem scan_nil (awaited : List Char) : scan awaited [] = some awaited := rfl

@[simp]
theorem scan_cons (awaited : List Char) (c : Char) (text : List Char) :
    scan awaited (c :: text) = (await awaited c).bind (scan · text) := rfl

@[simp]
theorem scan_append (awaited first rest : List Char) :
    scan awaited (first ++ rest) = (scan awaited first).bind (scan · rest) :=
  List.foldlM_append

theorem await_append {awaited after : List Char} {c : Char} (h : await awaited c = some after)
    (outer : List Char) : await (awaited ++ outer) c = some (after ++ outer) := by
  unfold await at h ⊢
  cases hclosing : closing? c with
  | some close =>
    rw [hclosing] at h
    cases h
    rfl
  | none =>
    rw [hclosing] at h
    cases awaited with
    | nil => grind
    | cons next rest => grind

theorem scan_append_outer {awaited after text : List Char} (h : scan awaited text = some after)
    (outer : List Char) : scan (awaited ++ outer) text = some (after ++ outer) := by
  induction text generalizing awaited with
  | nil =>
    cases h
    rfl
  | cons c text ih =>
    rw [scan_cons] at h
    obtain ⟨next, hnext, h⟩ := Option.bind_eq_some_iff.mp h
    rw [scan_cons, await_append hnext, Option.bind_some, ih h]

/-- Behind a nested text, what was awaited before it is awaited. -/
theorem Nested.scan_eq {text : String} (h : Nested text) (awaited : List Char) :
    scan awaited text.toList = some awaited :=
  scan_append_outer h awaited

theorem nested_empty : Nested "" := by
  decide

theorem Nested.append {first rest : String} (hfirst : Nested first) (hrest : Nested rest) :
    Nested (first ++ rest) := by
  rw [Nested, String.toList_append, scan_append, hfirst.scan_eq, Option.bind_some, hrest.scan_eq]

theorem Nested.parenthesized {text : String} (h : Nested text) : Nested ("(" ++ text ++ ")") := by
  simp [Nested, h.scan_eq]

theorem nested_join {texts : List String} (h : ∀ text ∈ texts, Nested text) :
    Nested (String.join texts) := by
  induction texts with
  | nil => exact nested_empty
  | cons text texts ih =>
    rw [List.forall_mem_cons] at h
    rw [String.join_cons]
    exact h.1.append (ih h.2)

theorem nested_intercalate {sep : String} (hsep : Nested sep) {texts : List String}
    (h : ∀ text ∈ texts, Nested text) : Nested (sep.intercalate texts) := by
  induction texts with
  | nil => exact nested_empty
  | cons text texts ih =>
    rw [List.forall_mem_cons] at h
    cases texts with
    | nil => simpa using h.1
    | cons next texts =>
      rw [String.intercalate_cons_cons]
      exact (h.1.append hsep).append (ih h.2)

theorem await_of_not_mem {c : Char} (h : c ∉ brackets) (awaited : List Char) :
    await awaited c = some awaited := by
  simp only [brackets, List.mem_cons, List.not_mem_nil, or_false, not_or] at h
  simp [h]

theorem Bare.nested {text : String} (h : Bare text) : Nested text := by
  have hscan : ∀ cs : List Char, (∀ c ∈ cs, c ∉ brackets) → scan [] cs = some [] := by
    intro cs hcs
    induction cs with
    | nil => rfl
    | cons c cs ih =>
      rw [List.forall_mem_cons] at hcs
      rw [scan_cons, await_of_not_mem hcs.1, Option.bind_some, ih hcs.2]
  exact hscan _ h

theorem Bare.append {first rest : String} (hfirst : Bare first) (hrest : Bare rest) :
    Bare (first ++ rest) := by
  rw [Bare, String.toList_append]
  exact List.forall_mem_append.mpr ⟨hfirst, hrest⟩

theorem bare_of_isPathText {text : String} (h : Scala.IsPathText text.toList) : Bare text := by
  have hpath : ∀ c ∈ brackets, Scala.isPathChar c = false := forall_brackets (by decide)
  exact fun c hc hbracket => h.not_mem (hpath c hbracket) hc

end Facade.Text
