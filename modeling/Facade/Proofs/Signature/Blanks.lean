import Facade.Proofs.Signature.Reading

/-!
This module contains the proofs that white space around a signature makes no difference to what it is
read as.
-/

namespace Facade

namespace Text

section

variable {before after : List Char}

theorem trimEnd_append (h : ∀ c ∈ after, isBlank c = true) (s : List Char) :
    trimEnd (s ++ after) = trimEnd s := by
  have hreverse : ∀ c ∈ after.reverse, isBlank c = true := by simpa using h
  rw [trimEnd, trimEnd, List.reverse_append, List.dropWhile_append_of_pos hreverse]

theorem trim_pad (hbefore : ∀ c ∈ before, isBlank c = true) (hafter : ∀ c ∈ after, isBlank c = true)
    (s : List Char) : trim (before ++ s ++ after) = trim s := by
  have hstart : trimStart after = [] := List.dropWhile_eq_nil_iff.mpr hafter
  rw [List.append_assoc, trim, Text.trimStart_append hbefore, trimStart,
    List.dropWhile_append]
  split
  . next hempty =>
    rw [← trimStart, hstart, trim, trimStart, List.isEmpty_iff.mp hempty]
  . exact trimEnd_append hafter _

theorem exists_pad (s : List Char) : ∃ before after, (∀ c ∈ before, isBlank c = true) ∧
    (∀ c ∈ after, isBlank c = true) ∧ s = before ++ trim s ++ after := by
  refine ⟨s.takeWhile isBlank, ((trimStart s).reverse.takeWhile isBlank).reverse,
    fun c hc => List.mem_takeWhile_imp hc, ?_, ?_⟩
  . intro c hc
    exact List.mem_takeWhile_imp (List.mem_reverse.mp hc)
  . rw [trim, trimEnd, List.append_assoc, ← List.reverse_append, List.takeWhile_append_dropWhile,
      List.reverse_reverse, trimStart, List.takeWhile_append_dropWhile]

end

end Text

namespace Host.Signature

open Text

section

variable {before after : List Char}

theorem head?_append_blanks (hafter : ∀ c ∈ after, isBlank c = true) {rest : List Char} {c : Char}
    (h : (rest ++ after).head? = some c) : rest.head? = some c ∨ isBlank c = true := by
  cases rest with
  | nil => exact .inr (hafter c (List.mem_of_head? h))
  | cons d rest => exact .inl h

theorem Token.StandsBefore.append_blanks (hafter : ∀ c ∈ after, isBlank c = true) {t : Token}
    {rest : List Char} (h : t.StandsBefore rest) : t.StandsBefore (rest ++ after) := by
  cases t with
  | name chars =>
    obtain ⟨hne, hchars, hhead⟩ := h
    refine ⟨hne, hchars, fun c hc hin => ?_⟩
    obtain hc | hblank := head?_append_blanks hafter hc
    . exact hhead c hc hin
    . rw [isBlank_of_inName hin] at hblank
      cases hblank
  | bound =>
    obtain ⟨c, hc, hblank⟩ := h
    exact ⟨c, by rw [List.head?_append, hc, Option.some_or], hblank⟩
  | opening | closing | comma | brackets | wildcard => exact trivial

theorem Spells.append_blanks (hafter : ∀ c ∈ after, isBlank c = true) {ts : List Token}
    {text : List Char} (h : Spells ts text) : Spells ts (text ++ after) := by
  induction h with
  | nil hblanks => exact .nil (List.forall_mem_append.mpr ⟨hblanks, hafter⟩)
  | cons hblanks ht _ ih =>
    rw [List.append_assoc]
    exact .cons hblanks (ht.append_blanks hafter) ih

theorem parse_pad (hbefore : ∀ c ∈ before, isBlank c = true)
    (hafter : ∀ c ∈ after, isBlank c = true) {source : List Char} {s : Signature}
    (h : parse source = .ok s) : parse (before ++ source ++ after) = .ok s := by
  obtain ⟨hlevels, ts, hspells, hts⟩ := parse_eq_ok_iff.mp h
  refine parse_eq_ok_iff.mpr ⟨hlevels, ts, ?_, hts⟩
  rw [List.append_assoc, ← spells_trimStart_iff, trimStart_append hbefore, spells_trimStart_iff]
  exact hspells.append_blanks hafter

end

theorem toList_arrayName (chars : List Char) (count : Nat) :
    (arrayName chars count).toList = chars ++ (List.replicate count ['[', ']']).flatten :=
  String.toList_ofList

/-- The text of a type without a value is the only one that is read as such. -/
theorem parse_eq_void_iff {source : List Char} :
    parse source = .ok (mk "void" []) ↔ trim source = "void".toList := by
  constructor
  . intro h
    obtain ⟨-, ts, hspells, hts⟩ := parse_eq_ok_iff.mp h
    generalize hvoid : mk "void" [] = s at hts
    cases hts with
    | @plain chars hname count =>
      have htext := congrArg String.toList (mk.inj hvoid).1
      rw [toList_arrayName] at htext
      cases count with
      | succ count =>
        have hmem : ']' ∈ "void".toList := by simp [htext, List.replicate_succ]
        exact absurd hmem (by decide)
      | zero =>
        rw [List.replicate_zero, List.flatten_nil, List.append_nil] at htext
        obtain ⟨rest, hsource, -, hrest⟩ := spells_cons_iff.mp hspells
        have hblank : ∀ c ∈ rest, isBlank c = true :=
          List.dropWhile_eq_nil_iff.mp (spells_nil_iff.mp hrest)
        have hname : trim source = trimEnd chars := by
          rw [trim, hsource, trimEnd_append hblank, Token.chars_name]
        rw [hname, ← htext]
        decide
    | applied hname harguments count =>
      obtain rfl := (mk.inj hvoid).2
      cases harguments
  . intro h
    obtain ⟨before, after, hbefore, hafter, hsource⟩ := exists_pad source
    rw [hsource, h]
    exact parse_pad hbefore hafter rfl

end Host.Signature

end Facade
