import Facade.Json.Explain
import Facade.Proofs.Json.Spelling
import Facade.Proofs.Outcome

/-!
This module contains the proofs about the reading of JSON texts: a text that spells a value is read as
this value.
-/

namespace Facade.Json

open Data

theorem skipSpace_append {blanks : List Char} (h : IsSpace blanks) {c : Char}
    (hc : Cursor.isSpace c = false) (cs : List Char) (position : Nat) :
    ∃ place, Cursor.skipSpace ⟨blanks ++ c :: cs, position⟩ = ⟨c :: cs, place⟩ := by
  unfold Cursor.skipSpace
  induction blanks generalizing position with
  | nil =>
    refine ⟨position, ?_⟩
    rw [List.nil_append, Cursor.skipSpace.go, if_neg (by simp [hc])]
  | cons b blanks ih =>
    rw [IsSpace, List.forall_mem_cons] at h
    dsimp only [List.cons_append]
    rw [Cursor.skipSpace.go, if_pos h.1]
    exact ih h.2 (position + 1)

theorem skipSpace_cons {c : Char} (hc : Cursor.isSpace c = false) (cs : List Char) (position : Nat) :
    Cursor.skipSpace ⟨c :: cs, position⟩ = ⟨c :: cs, position⟩ := by
  unfold Cursor.skipSpace
  rw [Cursor.skipSpace.go, if_neg (by simp [hc])]

theorem skipSpace_of_isSpace {blanks : List Char} (h : IsSpace blanks) (position : Nat) :
    (Cursor.skipSpace ⟨blanks, position⟩).rest = [] := by
  unfold Cursor.skipSpace
  induction blanks generalizing position with
  | nil => rfl
  | cons b blanks ih =>
    rw [IsSpace, List.forall_mem_cons] at h
    dsimp only
    rw [Cursor.skipSpace.go, if_pos h.1]
    exact ih h.2 (position + 1)

theorem readLetters_append (start : Nat) (letters rest : List Char) (position : Nat) :
    ∃ place, readLetters start letters ⟨letters ++ rest, position⟩ = .ok ((), ⟨rest, place⟩) := by
  induction letters generalizing position with
  | nil => exact ⟨position, rfl⟩
  | cons letter letters ih =>
    rw [readLetters]
    dsimp only [List.cons_append]
    rw [if_pos rfl]
    exact ih _

theorem readUnit_fourHexDigits {n : Nat} (h : n < 32) (start position : Nat) (rest : List Char) :
    readUnit start ⟨fourHexDigits n ++ rest, position⟩ = .ok (n, ⟨rest, position + 4⟩) := by
  have hdigits : ∀ n < 32, (fourHexDigits n).length = 4 ∧ Text.byteLength (fourHexDigits n) = 4 ∧
      hexNumber? (fourHexDigits n) = some n := by decide
  obtain ⟨hlength, hbytes, hvalue⟩ := hdigits n h
  rw [readUnit, fewBytes]
  dsimp only
  rw [← hlength, List.take_left, List.drop_left, hvalue, if_neg (by omega)]
  simp [hlength]

theorem readUnits_fourHexDigits {c : Char} (h : c.toNat < 32) (start position : Nat)
    (rest : List Char) :
    readUnits start ⟨fourHexDigits c.toNat ++ rest, position⟩ = .ok (c, ⟨rest, position + 4⟩) := by
  rw [readUnits, readUnit_fourHexDigits h, Outcome.ok_bind]
  dsimp only
  rw [if_neg (by simp; omega), if_pos (by simp; omega), Char.ofNat_toNat]
  rfl

theorem escapeChar_cases (c : Char) :
    (escapeChar c = [c] ∧ c ≠ '"' ∧ c ≠ '\\' ∧ ¬ c.toNat < 32) ∨
      ∃ escape, escapeChar c = '\\' :: escape ∧ ∀ start rest position, ∃ place,
        readEscape start ⟨escape ++ rest, position⟩ = .ok (c, ⟨rest, place⟩) := by
  unfold escapeChar
  split_ifs with hquote hslash hback hfeed hline hreturn htab hcontrol
  . exact .inr ⟨['"'], rfl, fun _ _ _ => ⟨_, by rw [hquote]; rfl⟩⟩
  . exact .inr ⟨['\\'], rfl, fun _ _ _ => ⟨_, by rw [hslash]; rfl⟩⟩
  . exact .inr ⟨['b'], rfl, fun _ _ _ => ⟨_, by rw [hback]; rfl⟩⟩
  . exact .inr ⟨['f'], rfl, fun _ _ _ => ⟨_, by rw [hfeed]; rfl⟩⟩
  . exact .inr ⟨['n'], rfl, fun _ _ _ => ⟨_, by rw [hline]; rfl⟩⟩
  . exact .inr ⟨['r'], rfl, fun _ _ _ => ⟨_, by rw [hreturn]; rfl⟩⟩
  . exact .inr ⟨['t'], rfl, fun _ _ _ => ⟨_, by rw [htab]; rfl⟩⟩
  . exact .inr ⟨'u' :: fourHexDigits c.toNat, rfl, fun start rest position =>
      ⟨_, readUnits_fourHexDigits hcontrol start (position + 1) rest⟩⟩
  . exact .inl ⟨rfl, hquote, hslash, hcontrol⟩

theorem readString_escapeChar (c : Char) (start fuel position : Nat) (rest : List Char) :
    ∃ place, readString start (fuel + 1) ⟨escapeChar c ++ rest, position⟩ = do
      let (text, cur) ← readString start fuel ⟨rest, place⟩
      return (c :: text, cur) := by
  rw [readString]
  obtain ⟨hwritten, hquote, hslash, hcontrol⟩ | ⟨escape, hwritten, hescape⟩ := escapeChar_cases c
  . refine ⟨position + c.utf8Size, ?_⟩
    rw [hwritten]
    dsimp only [List.singleton_append]
    rw [if_neg hquote, if_neg hslash, if_neg hcontrol]
  . obtain ⟨place, hread⟩ := hescape start rest (position + 1)
    refine ⟨place, ?_⟩
    rw [hwritten]
    dsimp only [List.cons_append]
    rw [if_neg (by decide), if_pos rfl, hread, Outcome.ok_bind]

/-- The characters of a string are read as they were before they were escaped. -/
theorem readString_flatMap (text : List Char) (start : Nat) {fuel : Nat} (h : text.length < fuel)
    (position : Nat) (rest : List Char) :
    ∃ place, readString start fuel ⟨text.flatMap escapeChar ++ '"' :: rest, position⟩ =
      .ok (text, ⟨rest, place⟩) := by
  induction text generalizing fuel position with
  | nil =>
    obtain ⟨fuel, rfl⟩ := Nat.exists_eq_add_one_of_ne_zero (Nat.ne_zero_of_lt h)
    exact ⟨_, rfl⟩
  | cons c text ih =>
    obtain ⟨fuel, rfl⟩ := Nat.exists_eq_add_one_of_ne_zero (Nat.ne_zero_of_lt h)
    rw [List.flatMap_cons, List.append_assoc]
    obtain ⟨between, hread⟩ := readString_escapeChar c start fuel position
      (text.flatMap escapeChar ++ '"' :: rest)
    obtain ⟨place, hrest⟩ := ih (Nat.lt_of_succ_lt_succ h) between
    refine ⟨place, ?_⟩
    rw [hread, hrest]
    rfl

theorem length_le_flatMap_escapeChar (text : List Char) :
    text.length ≤ (text.flatMap escapeChar).length := by
  induction text with
  | nil => exact Nat.le_refl _
  | cons c text ih =>
    have hpositive : 1 ≤ (escapeChar c).length := by
      obtain ⟨hwritten, -⟩ | ⟨escape, hwritten, -⟩ := escapeChar_cases c <;> simp [hwritten]
    rw [List.flatMap_cons, List.length_append, List.length_cons]
    omega

theorem readString_stringText (s : String) (rest : List Char) :
    ∃ inner, (stringText s).toList = '"' :: inner ∧ ∀ start position, ∃ place,
      readString start ((inner ++ rest).length + 1 + 1) ⟨inner ++ rest, position⟩ =
        .ok (s.toList, ⟨rest, place⟩) := by
  refine ⟨s.toList.flatMap escapeChar ++ ['"'], by simp [stringText], fun start position => ?_⟩
  rw [List.append_assoc, List.singleton_append]
  apply readString_flatMap
  have hlength := length_le_flatMap_escapeChar s.toList
  simp only [List.length_append, List.length_cons]
  omega

/-- A value starts with a character that is neither white space nor a closing bracket. -/
theorem Spells.exists_head {t : Tree} {cs : List Char} (h : Spells t cs) :
    ∃ c tail, cs = c :: tail ∧ Cursor.isSpace c = false ∧ c ≠ ']' := by
  match t with
  | .null => exact ⟨_, _, h, rfl, by decide⟩
  | .flag true => exact ⟨_, _, h, rfl, by decide⟩
  | .flag false => exact ⟨_, _, h, rfl, by decide⟩
  | .text s =>
    obtain ⟨inner, hinner, -⟩ := readString_stringText s []
    exact ⟨_, _, (show cs = _ from h).trans hinner, rfl, by decide⟩
  | .list items true =>
    obtain ⟨inner, -, hcs⟩ := h
    exact ⟨_, _, hcs, rfl, by decide⟩
  | .table entries true =>
    obtain ⟨inner, -, hcs⟩ := h
    exact ⟨_, _, hcs, rfl, by decide⟩

theorem readValue_append {blanks : List Char} (h : IsSpace blanks) {c : Char}
    (hc : Cursor.isSpace c = false) (fuel position : Nat) (cs : List Char) :
    ∃ place, readValue (fuel + 1) ⟨blanks ++ c :: cs, position⟩ =
      readValue (fuel + 1) ⟨c :: cs, place⟩ := by
  obtain ⟨place, hskip⟩ := skipSpace_append h hc cs position
  refine ⟨place, ?_⟩
  unfold readValue
  simp only [hskip, skipSpace_cons hc]

theorem readItems_close {blanks : List Char} (h : IsSpace blanks) (fuel : Nat) (turn : Turn)
    (position : Nat) (rest : List Char) :
    ∃ place, readItems (fuel + 1) turn ⟨blanks ++ ']' :: rest, position⟩ =
      ([], .ok place, some ⟨rest, place⟩) := by
  obtain ⟨place, hskip⟩ := skipSpace_append h (c := ']') rfl rest position
  unfold readItems
  simp only [hskip]
  exact ⟨_, rfl⟩

theorem readItems_lead {turn : Turn} {lead : List Char} (h : Leads turn lead) {c : Char}
    (hc : Cursor.isSpace c = false) (hne : c ≠ ']') (fuel position : Nat) (cs : List Char) :
    ∃ place, readItems (fuel + 1) turn ⟨lead ++ c :: cs, position⟩ =
      readItem fuel ⟨c :: cs, place⟩ := by
  unfold readItems
  cases turn with
  | first =>
    obtain ⟨place, hskip⟩ := skipSpace_append h hc cs position
    refine ⟨place, ?_⟩
    simp only [hskip]
  | later =>
    obtain ⟨before, behind, hbefore, hbehind, rfl⟩ := h
    rw [List.append_assoc, List.cons_append]
    obtain ⟨between, hcomma⟩ := skipSpace_append hbefore (c := ',') rfl (behind ++ c :: cs) position
    obtain ⟨place, hskip⟩ := skipSpace_append hbehind hc cs (between + ','.utf8Size)
    refine ⟨place, ?_⟩
    simp only [hcomma, Cursor.next, hskip]

theorem readEntries_close {blanks : List Char} (h : IsSpace blanks) (fuel : Nat) (turn : Turn)
    (position : Nat) (rest : List Char) :
    ∃ place, readEntries (fuel + 1) turn ⟨blanks ++ '\x7d' :: rest, position⟩ =
      ([], .ok place, some ⟨rest, place⟩) := by
  obtain ⟨place, hskip⟩ := skipSpace_append h (c := '\x7d') rfl rest position
  unfold readEntries
  simp only [hskip]
  exact ⟨_, rfl⟩

theorem readEntries_lead {turn : Turn} {lead : List Char} (h : Leads turn lead)
    (fuel position : Nat) (cs : List Char) :
    ∃ place, readEntries (fuel + 1) turn ⟨lead ++ '"' :: cs, position⟩ =
      readEntry fuel ⟨'"' :: cs, place⟩ := by
  unfold readEntries
  cases turn with
  | first =>
    obtain ⟨place, hskip⟩ := skipSpace_append h (c := '"') rfl cs position
    refine ⟨place, ?_⟩
    simp only [hskip]
  | later =>
    obtain ⟨before, behind, hbefore, hbehind, rfl⟩ := h
    rw [List.append_assoc, List.cons_append]
    obtain ⟨between, hcomma⟩ := skipSpace_append hbefore (c := ',') rfl (behind ++ '"' :: cs) position
    obtain ⟨place, hskip⟩ := skipSpace_append hbehind (c := '"') rfl cs (between + ','.utf8Size)
    refine ⟨place, ?_⟩
    simp only [hcomma, Cursor.next, hskip]

theorem readItem_append {fuel position between : Nat} {cs rest : List Char} {item : Node}
    (h : readValue fuel ⟨cs, position⟩ = (item, some ⟨rest, between⟩)) {nodes : List Node}
    {place : Nat} {behind : List Char}
    (hrest : readItems fuel .later ⟨rest, between⟩ = (nodes, .ok place, some ⟨behind, place⟩)) :
    readItem (fuel + 1) ⟨cs, position⟩ = (item :: nodes, .ok place, some ⟨behind, place⟩) := by
  rw [readItem, h]
  dsimp only
  rw [hrest]

theorem readEntry_append (name : String) {link : List Char} (hlink : Links link) {fuel : Nat}
    {t : Tree} {entries : List (String × Tree)} {cs rest behind : List Char}
    (h : ∀ blanks, IsSpace blanks → ∀ position, ∃ node between,
      readValue fuel ⟨blanks ++ cs, position⟩ = (node, some ⟨rest, between⟩) ∧ node.tree = t)
    (hrest : ∀ between, ∃ nodes place, readEntries fuel .later ⟨rest, between⟩ =
      (nodes, .ok place, some ⟨behind, place⟩) ∧ Node.entryTrees nodes = entries)
    (position : Nat) :
    ∃ nodes place, readEntry (fuel + 1) ⟨(stringText name).toList ++ (link ++ cs), position⟩ =
      (nodes, .ok place, some ⟨behind, place⟩) ∧ Node.entryTrees nodes = (name, t) :: entries := by
  obtain ⟨before, blanks, hbefore, hblanks, rfl⟩ := hlink
  rw [List.append_assoc, List.cons_append]
  obtain ⟨inner, htext, hkey⟩ := readString_stringText name (before ++ ':' :: (blanks ++ cs))
  obtain ⟨stop, hkey⟩ := hkey position (position + '"'.utf8Size)
  obtain ⟨colon, hskip⟩ := skipSpace_append hbefore (c := ':') rfl (blanks ++ cs) stop
  obtain ⟨node, between, hread, rfl⟩ := h blanks hblanks (colon + ':'.utf8Size)
  obtain ⟨nodes, place, hnodes, rfl⟩ := hrest between
  refine ⟨(⟨name, stop, restingPlace ⟨before ++ ':' :: (blanks ++ cs), stop⟩⟩, node,
    (Cursor.skipSpace ⟨rest, between⟩).position) :: nodes, place, ?_, rfl⟩
  rw [htext, List.cons_append, readEntry]
  simp only [Cursor.next, List.length_cons, hkey, hskip, hread, hnodes, String.ofList_toList]

theorem SpellsItems.length_pos {turn : Turn} {ts : List Tree} {cs : List Char}
    (h : SpellsItems turn ts cs) : 1 ≤ cs.length := by
  cases ts with
  | nil =>
    obtain ⟨blanks, -, rfl⟩ := h
    simp
  | cons t ts =>
    obtain ⟨lead, item, rest, -, hitem, -, rfl⟩ := h
    obtain ⟨c, tail, rfl, -⟩ := hitem.exists_head
    simp
    omega

theorem SpellsEntries.length_pos {turn : Turn} {entries : List (String × Tree)} {cs : List Char}
    (h : SpellsEntries turn entries cs) : 1 ≤ cs.length := by
  cases entries with
  | nil =>
    obtain ⟨blanks, -, rfl⟩ := h
    simp
  | cons entry entries =>
    obtain ⟨lead, link, value, rest, -, -, hvalue, -, rfl⟩ := h
    obtain ⟨c, tail, rfl, -⟩ := hvalue.exists_head
    simp
    omega

theorem readValue_of_atom {c : Char} (hc : Cursor.isSpace c = false) (hlist : c ≠ '[')
    (htable : c ≠ '\x7b') (fuel : Nat) (cs : List Char) (position : Nat) :
    readValue (fuel + 1) ⟨c :: cs, position⟩ = readAtom c ⟨c :: cs, position⟩ := by
  unfold readValue
  simp only [skipSpace_cons hc]

theorem readValue_word {word letters : String} {c : Char} {value : Atom}
    (hword : word.toList = c :: letters.toList) (hc : Cursor.isSpace c = false) (hlist : c ≠ '[')
    (htable : c ≠ '\x7b')
    (hatom : ∀ cur, readAtom c cur = ofOutcome cur.position
      ((readLetters cur.position letters.toList cur.next).map fun read => (value, read.2)))
    (fuel : Nat) (rest : List Char) (position : Nat) :
    ∃ place, readValue (fuel + 1) ⟨word.toList ++ rest, position⟩ =
      (.atom value position place, some ⟨rest, place⟩) := by
  obtain ⟨place, hread⟩ :=
    readLetters_append position letters.toList rest (position + c.utf8Size)
  refine ⟨place, ?_⟩
  rw [hword, List.cons_append, readValue_of_atom hc hlist htable, hatom]
  simp only [Cursor.next, hread]
  rfl

theorem readValue_stringText (s : String) (fuel : Nat) (rest : List Char) (position : Nat) :
    ∃ place, readValue (fuel + 1) ⟨(stringText s).toList ++ rest, position⟩ =
      (.atom (.text s) position place, some ⟨rest, place⟩) := by
  obtain ⟨inner, htext, hread⟩ := readString_stringText s rest
  obtain ⟨place, hread⟩ := hread position (position + '"'.utf8Size)
  refine ⟨place, ?_⟩
  rw [htext, List.cons_append, readValue_of_atom rfl (by decide) (by decide), readAtom,
    if_neg (by decide), if_neg (by decide), if_neg (by decide), if_neg (by decide),
    if_neg (by decide), if_pos rfl]
  simp only [Cursor.next, List.length_cons, hread, Except.map, ofOutcome, String.ofList_toList]

mutual

/-- A text that spells a value is read as this value. -/
theorem readValue_of_spells (t : Tree) {cs blanks : List Char} (h : Spells t cs)
    (hblanks : IsSpace blanks) {fuel : Nat} (hfuel : 2 * cs.length ≤ fuel) (rest : List Char)
    (position : Nat) :
    ∃ node place, readValue fuel ⟨blanks ++ (cs ++ rest), position⟩ = (node, some ⟨rest, place⟩) ∧
      node.tree = t := by
  obtain ⟨c, tail, hcs, hc, -⟩ := h.exists_head
  obtain ⟨fuel, rfl⟩ : ∃ n, fuel = n + 1 := by
    apply Nat.exists_eq_add_one_of_ne_zero
    rw [hcs, List.length_cons] at hfuel
    omega
  obtain ⟨start, hskip⟩ := readValue_append hblanks hc fuel position (tail ++ rest)
  rw [hcs, List.cons_append, hskip, ← List.cons_append, ← hcs]
  -- the recursion is on the value: all of its parts have texts with fewer characters
  match t with
  | .null =>
    obtain rfl : cs = _ := h
    have hword : "null".toList = 'n' :: "ull".toList := rfl
    obtain ⟨place, hread⟩ :=
      readValue_word hword rfl (by decide) (by decide) (fun _ => rfl) fuel rest start
    exact ⟨_, place, hread, rfl⟩
  | .flag true =>
    obtain rfl : cs = _ := h
    have hword : "true".toList = 't' :: "rue".toList := rfl
    obtain ⟨place, hread⟩ :=
      readValue_word hword rfl (by decide) (by decide) (fun _ => rfl) fuel rest start
    exact ⟨_, place, hread, rfl⟩
  | .flag false =>
    obtain rfl : cs = _ := h
    have hword : "false".toList = 'f' :: "alse".toList := rfl
    obtain ⟨place, hread⟩ :=
      readValue_word hword rfl (by decide) (by decide) (fun _ => rfl) fuel rest start
    exact ⟨_, place, hread, rfl⟩
  | .text s =>
    obtain rfl : cs = _ := h
    obtain ⟨place, hread⟩ := readValue_stringText s fuel rest start
    exact ⟨_, place, hread, rfl⟩
  | .list items true =>
    obtain ⟨inner, hinner, rfl⟩ := h
    have hless : 2 * inner.length + 1 ≤ fuel := by
      rw [List.length_cons] at hfuel
      omega
    obtain ⟨nodes, place, hread, rfl⟩ := readItems_of_spells .first items hinner hless rest
      (start + '['.utf8Size)
    refine ⟨.list start nodes (.ok place), place, ?_, rfl⟩
    unfold readValue
    rw [List.cons_append, skipSpace_cons rfl]
    simp only [Cursor.next, hread]
  | .table entries true =>
    obtain ⟨inner, hinner, rfl⟩ := h
    have hless : 2 * inner.length + 1 ≤ fuel := by
      rw [List.length_cons] at hfuel
      omega
    obtain ⟨nodes, place, hread, rfl⟩ := readEntries_of_spells .first entries hinner hless rest
      (start + '\x7b'.utf8Size)
    refine ⟨.table start nodes (.ok place), place, ?_, rfl⟩
    unfold readValue
    rw [List.cons_append, skipSpace_cons rfl]
    simp only [Cursor.next, hread]

theorem readItems_of_spells (turn : Turn) (ts : List Tree) {cs : List Char}
    (h : SpellsItems turn ts cs) {fuel : Nat} (hfuel : 2 * cs.length + 1 ≤ fuel) (rest : List Char)
    (position : Nat) :
    ∃ nodes place, readItems fuel turn ⟨cs ++ rest, position⟩ =
      (nodes, .ok place, some ⟨rest, place⟩) ∧ Node.trees nodes = ts := by
  obtain ⟨fuel, rfl⟩ : ∃ n, fuel = n + 1 := Nat.exists_eq_add_one_of_ne_zero (by omega)
  match ts with
  | [] =>
    obtain ⟨blanks, hblanks, rfl⟩ := h
    rw [List.append_assoc, List.singleton_append]
    obtain ⟨place, hread⟩ := readItems_close hblanks fuel turn position rest
    exact ⟨[], place, hread, rfl⟩
  | t :: ts =>
    obtain ⟨lead, item, behind, hlead, hitem, hbehind, rfl⟩ := h
    obtain ⟨c, tail, hcons, hc, hne⟩ := hitem.exists_head
    have hpositive := hbehind.length_pos
    have hlength : item.length = tail.length + 1 := by rw [hcons, List.length_cons]
    rw [List.length_append, List.length_append] at hfuel
    obtain ⟨fuel, rfl⟩ : ∃ n, fuel = n + 1 := Nat.exists_eq_add_one_of_ne_zero (by omega)
    have hitemLess : 2 * item.length ≤ fuel := by omega
    have hbehindLess : 2 * behind.length + 1 ≤ fuel := by omega
    obtain ⟨place, hfirst⟩ := readItems_lead hlead hc hne (fuel + 1) position (tail ++ (behind ++ rest))
    obtain ⟨node, between, hread, rfl⟩ :=
      readValue_of_spells t hitem isSpace_nil hitemLess (behind ++ rest) place
    obtain ⟨nodes, stop, hrest, rfl⟩ := readItems_of_spells .later ts hbehind hbehindLess rest between
    refine ⟨node :: nodes, stop, ?_, rfl⟩
    rw [List.append_assoc, List.append_assoc, hcons, List.cons_append, hfirst]
    rw [List.nil_append, hcons] at hread
    exact readItem_append hread hrest

theorem readEntries_of_spells (turn : Turn) (entries : List (String × Tree)) {cs : List Char}
    (h : SpellsEntries turn entries cs) {fuel : Nat} (hfuel : 2 * cs.length + 1 ≤ fuel)
    (rest : List Char) (position : Nat) :
    ∃ nodes place, readEntries fuel turn ⟨cs ++ rest, position⟩ =
      (nodes, .ok place, some ⟨rest, place⟩) ∧ Node.entryTrees nodes = entries := by
  obtain ⟨fuel, rfl⟩ : ∃ n, fuel = n + 1 := Nat.exists_eq_add_one_of_ne_zero (by omega)
  match entries with
  | [] =>
    obtain ⟨blanks, hblanks, rfl⟩ := h
    rw [List.append_assoc, List.singleton_append]
    obtain ⟨place, hread⟩ := readEntries_close hblanks fuel turn position rest
    exact ⟨[], place, hread, rfl⟩
  | (key, t) :: entries =>
    obtain ⟨lead, link, value, behind, hlead, hlink, hvalue, hbehind, rfl⟩ := h
    obtain ⟨inner, htext, -⟩ := readString_stringText key []
    have hpositive := hbehind.length_pos
    have hlength : (stringText key).toList.length = inner.length + 1 := by
      rw [htext, List.length_cons]
    simp only [List.length_append] at hfuel
    obtain ⟨fuel, rfl⟩ : ∃ n, fuel = n + 1 := Nat.exists_eq_add_one_of_ne_zero (by omega)
    have hvalueLess : 2 * value.length ≤ fuel := by omega
    have hbehindLess : 2 * behind.length + 1 ≤ fuel := by omega
    -- the value and what is behind it are shorter than the entry, so the fuel is enough for each
    obtain ⟨place, hfirst⟩ := readEntries_lead hlead (fuel + 1) position
      (inner ++ (link ++ (value ++ (behind ++ rest))))
    obtain ⟨nodes, stop, hread, hnodes⟩ := readEntry_append key hlink
      (fun blanks hblanks => readValue_of_spells t hvalue hblanks hvalueLess (behind ++ rest))
      (readEntries_of_spells .later entries hbehind hbehindLess rest) place
    refine ⟨nodes, stop, ?_, hnodes⟩
    simp only [List.append_assoc]
    rw [htext, List.cons_append] at hread ⊢
    rw [hfirst, hread]

end

theorem ofText_of_isTextOf {t : Tree} {text : String} (h : IsTextOf t text) :
    (Document.ofText text).node.tree = t ∧ (Document.ofText text).surplus? = none := by
  obtain ⟨before, cs, behind, hbefore, hcs, hbehind, htext⟩ := h
  have hfuel : 2 * cs.length ≤ 3 * text.toList.length + 3 := by
    rw [htext, List.length_append, List.length_append]
    omega
  obtain ⟨node, place, hread, htree⟩ := readValue_of_spells t hcs hbefore hfuel behind 0
  rw [← htext] at hread
  unfold Document.ofText Cursor.ofText
  simp only [hread, skipSpace_of_isSpace hbehind]
  exact ⟨htree, trivial⟩

theorem decodeText_of_isTextOf {α : Type} {decode : Tree → Decode α} {t : Tree} {a : α}
    (hdecode : decode t = .ok a) {text : String} (h : IsTextOf t text) :
    decodeText decode text = .ok a := by
  obtain ⟨htree, hsurplus⟩ := ofText_of_isTextOf h
  unfold decodeText
  simp only [htree, hdecode, hsurplus]

end Facade.Json
