import Facade.Text.Quoted
import Facade.Toml.Quoted
import Mathlib.Tactic.SplitIfs

/-!
This module contains the proofs about quoted texts that are read as basic strings of TOML. The two
have the escapes for tabs, line ends, quotes and backslashes in common. All other characters that are
not visible are quoted with escapes that TOML does not have.
-/

namespace Facade.Toml

open Text

/-- Whether a basic string may hold a character in the way in which it is quoted. -/
def isPortable (c : Char) : Bool :=
  isVisible c || c == '\t' || c == '\n' || c == '\r'

/-- Whether a basic string may hold a text in the way in which it is quoted. -/
def isPortableText (s : String) : Bool :=
  s.toList.all isPortable

theorem isControl_of_isVisible {c : Char} (h : isVisible c = true) : isControl c = false := by
  have hhidden : ∀ n, n < 32 ∨ n = 127 → Text.hidden.covers n = true := by
    have hranges : Text.hidden = (0, 31) :: (127, 160) :: Text.hidden.drop 2 := rfl
    intro n hn
    rw [hranges, Ranges.covers, Ranges.covers]
    obtain hn | rfl := hn
    . rw [if_neg (by omega), if_pos (by omega)]
    . rfl
  rw [isVisible, Bool.and_eq_true, Bool.not_eq_true', Ranges.contains] at h
  rw [isControl, Bool.or_eq_false_iff, Bool.and_eq_false_imp, decide_eq_false_iff_not]
  constructor
  . intro hlow
    rw [hhidden _ (.inl (of_decide_eq_true hlow))] at h
    cases h.1
  . intro hdelete
    rw [hhidden _ (.inr hdelete)] at h
    cases h.1

theorem digitsValue?_eq_none {base : Nat} {c : Char} (h : digitValue? base c = none)
    (digits : List Char) : digitsValue? base (c :: digits) = none := by
  rw [digitsValue?, List.foldl_cons, h]
  induction digits with
  | nil => rfl
  | cons _ digits ih => exact ih

theorem readHex_brace (rest : List Char) : readHex 4 ('\x7b' :: rest) = none := by
  have hvalue : digitsValue? 16 (('\x7b' :: rest).take 4) = none := by
    rw [List.take_succ_cons]
    exact digitsValue?_eq_none (by decide) _
  rw [readHex, hvalue]
  split <;> rfl

theorem quoteChar_cases (c : Char) :
    (isPortable c = true ∧ quoteChar c = [c] ∧ c ≠ '"' ∧ c ≠ '\\' ∧ isControl c = false) ∨
      (isPortable c = true ∧ ∃ escape, quoteChar c = '\\' :: escape ∧
        ∀ rest, readEscape (escape ++ rest) = some (c, rest)) ∨
      isPortable c = false ∧ ∃ escape, quoteChar c = '\\' :: escape ∧
        ∀ rest, readEscape (escape ++ rest) = none := by
  unfold quoteChar
  split_ifs with hnul htab hreturn hline hquote hslash hvisible
  . exact .inr (.inr ⟨by rw [hnul]; decide, ['0'], rfl, fun _ => rfl⟩)
  . exact .inr (.inl ⟨by rw [htab]; decide, ['t'], rfl, fun _ => by rw [htab]; rfl⟩)
  . exact .inr (.inl ⟨by rw [hreturn]; decide, ['r'], rfl, fun _ => by rw [hreturn]; rfl⟩)
  . exact .inr (.inl ⟨by rw [hline]; decide, ['n'], rfl, fun _ => by rw [hline]; rfl⟩)
  . exact .inr (.inl ⟨by rw [hquote]; decide, ['"'], rfl, fun _ => by rw [hquote]; rfl⟩)
  . exact .inr (.inl ⟨by rw [hslash]; decide, ['\\'], rfl, fun _ => by rw [hslash]; rfl⟩)
  . exact .inl ⟨by simp [isPortable, hvisible], rfl, hquote, hslash, isControl_of_isVisible hvisible⟩
  . refine .inr (.inr ⟨?_, _, rfl, fun rest => readHex_brace _⟩)
    simp [isPortable, hvisible, htab, hreturn, hline]

theorem readBasic_quoteChar (c : Char) (fuel : Nat) (text : List Char) :
    readBasic (fuel + 1) (quoteChar c ++ text) =
      if isPortable c then (readBasic fuel text).map fun (cs, rest) => (c :: cs, rest) else none := by
  obtain ⟨hportable, hquoted, hquote, hslash, hcontrol⟩ | ⟨hportable, escape, hquoted, hescape⟩ |
    ⟨hportable, escape, hquoted, hescape⟩ := quoteChar_cases c
  . rw [hquoted, hportable, List.singleton_append, readBasic]
    . rw [hcontrol]
      cases readBasic fuel text <;> rfl
    . exact hquote
    . exact hslash
  . rw [hquoted, hportable, List.cons_append, readBasic, hescape, Option.bind_eq_bind,
      Option.bind_some]
    dsimp only
    cases readBasic fuel text <;> rfl
  . rw [hquoted, hportable, List.cons_append, readBasic, hescape]
    rfl

/-- A quoted text is read as it was before, unless one of its characters has an escape that TOML does
not have. -/
theorem readBasic_flatMap (cs : List Char) {fuel : Nat} (h : cs.length < fuel) (rest : List Char) :
    readBasic fuel (cs.flatMap quoteChar ++ '"' :: rest) =
      if cs.all isPortable then some (cs, rest) else none := by
  induction cs generalizing fuel with
  | nil =>
    obtain ⟨fuel, rfl⟩ := Nat.exists_eq_add_one_of_ne_zero (Nat.ne_zero_of_lt h)
    rfl
  | cons c cs ih =>
    obtain ⟨fuel, rfl⟩ := Nat.exists_eq_add_one_of_ne_zero (Nat.ne_zero_of_lt h)
    rw [List.flatMap_cons, List.append_assoc, readBasic_quoteChar, ih (by simpa using h),
      List.all_cons]
    cases isPortable c <;> cases cs.all isPortable <;> rfl

theorem toList_quote (s : String) :
    (quote s).toList = '"' :: (s.toList.flatMap quoteChar ++ ['"']) := by
  rw [quote, String.toList_ofList]
  rfl

theorem exists_quoteChar (c : Char) : ∃ d ds, quoteChar c = d :: ds ∧ d ≠ '"' := by
  obtain ⟨-, hquoted, hquote, -⟩ | ⟨-, escape, hquoted, -⟩ | ⟨-, escape, hquoted, -⟩ :=
    quoteChar_cases c
  . exact ⟨c, [], hquoted, hquote⟩
  . exact ⟨_, escape, hquoted, by decide⟩
  . exact ⟨_, escape, hquoted, by decide⟩

theorem length_le_flatMap (cs : List Char) : cs.length ≤ (cs.flatMap quoteChar).length := by
  induction cs with
  | nil => exact Nat.le_refl 0
  | cons c cs ih =>
    obtain ⟨d, ds, hquoted, -⟩ := exists_quoteChar c
    rw [List.flatMap_cons, List.length_append, hquoted, List.length_cons, List.length_cons]
    omega

theorem readString_quote (s : String) {rest : List Char} (hrest : rest.head? ≠ some '"') :
    readString ((quote s).toList ++ rest) = if isPortableText s then some (s, rest) else none := by
  rw [toList_quote, List.cons_append, List.append_assoc, List.singleton_append]
  -- the text must not seem to start with the three quotes of a text of many lines
  have hline : ∀ tail, s.toList.flatMap quoteChar ++ '"' :: rest ≠ '"' :: '"' :: tail := by
    intro tail
    cases s.toList with
    | nil =>
      rintro h
      rw [List.flatMap_nil, List.nil_append, List.cons.injEq] at h
      exact hrest (by rw [h.2]; rfl)
    | cons c cs =>
      obtain ⟨d, ds, hquoted, hd⟩ := exists_quoteChar c
      rw [List.flatMap_cons, hquoted]
      intro h
      exact hd (List.cons.inj h).1
  rw [readString, readLineString, readBasic_flatMap, isPortableText]
  . cases s.toList.all isPortable with
    | true => simp
    | false => rfl
  . have hlength := length_le_flatMap s.toList
    simp only [List.length_cons, List.length_append]
    omega
  . intro tail h
    exact hline tail (List.cons.inj h).2
  . intro tail h
    cases h

end Facade.Toml
