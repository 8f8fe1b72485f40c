import Facade.Proofs.Outcome
import Facade.Proofs.Signature.Grammar
import Facade.Proofs.Text.Lines

/-!
This module contains the proofs about the reading of type signatures: a text is read as a signature
just if it is spelled with tokens that are a type which the signature stands for, and the arguments in
it are not nested too deep.
-/

namespace Facade.Host.Signature

open Text Outcome

theorem Token.StandsBefore.exists_head {t : Token} {rest : List Char} (h : t.StandsBefore rest) :
    ∃ c cs, t.chars = c :: cs ∧ isBlank c = false := by
  cases t with
  | name chars =>
    obtain ⟨hne, hchars, -⟩ := h
    obtain ⟨c, cs, rfl⟩ := List.exists_cons_of_ne_nil hne
    exact ⟨c, cs, rfl, isBlank_of_inName (hchars c List.mem_cons_self)⟩
  | opening => exact ⟨_, _, rfl, by decide⟩
  | closing => exact ⟨_, _, rfl, by decide⟩
  | comma => exact ⟨_, _, rfl, by decide⟩
  | brackets => exact ⟨_, _, rfl, by decide⟩
  | wildcard => exact ⟨_, _, rfl, by decide⟩
  | bound => exact ⟨_, _, rfl, by decide⟩

theorem spells_nil_iff {text : List Char} : Spells [] text ↔ trimStart text = [] := by
  constructor
  . rintro ⟨hblanks⟩
    exact List.dropWhile_eq_nil_iff.mpr hblanks
  . intro h
    obtain ⟨blanks, hblanks, heq⟩ := exists_blanks text
    rw [heq, h, List.append_nil]
    exact .nil hblanks

theorem spells_cons_iff {t : Token} {ts : List Token} {text : List Char} :
    Spells (t :: ts) text ↔
      ∃ rest, trimStart text = t.chars ++ rest ∧ t.StandsBefore rest ∧ Spells ts rest := by
  constructor
  . intro h
    cases h with
    | @cons blanks rest _ _ hblanks ht hts =>
      obtain ⟨c, cs, hchars, hc⟩ := ht.exists_head
      refine ⟨rest, ?_, ht, hts⟩
      rw [List.append_assoc, trimStart_append hblanks, hchars]
      exact trimStart_cons_of_not_blank hc _
  . rintro ⟨rest, htext, ht, hts⟩
    obtain ⟨blanks, hblanks, heq⟩ := exists_blanks text
    rw [heq, htext, ← List.append_assoc]
    exact .cons hblanks ht hts

theorem spells_trimStart_iff {ts : List Token} {text : List Char} :
    Spells ts (trimStart text) ↔ Spells ts text := by
  cases ts with
  | nil => rw [spells_nil_iff, spells_nil_iff, trimStart_trimStart]
  | cons t ts => rw [spells_cons_iff, spells_cons_iff, trimStart_trimStart]

theorem length_le_of_spells {ts : List Token} {text : List Char} (h : Spells ts text) :
    ts.length ≤ text.length := by
  induction h with
  | nil => exact Nat.zero_le _
  | cons _ ht _ ih =>
    obtain ⟨c, cs, hchars, -⟩ := ht.exists_head
    simp only [hchars, List.length_append, List.length_cons]
    omega

/-- Whether a text is spelled with some tokens up to a rest, whatever tokens that is spelled with. -/
def SpellsUpTo (ts : List Token) (text rest : List Char) : Prop :=
  ∀ ts', Spells ts' rest → Spells (ts ++ ts') text

theorem spellsUpTo_trimStart (text : List Char) : SpellsUpTo [] text (trimStart text) :=
  fun _ => spells_trimStart_iff.mp

theorem SpellsUpTo.cons {t : Token} {ts : List Token} {text between rest : List Char}
    (htext : trimStart text = t.chars ++ between) (ht : t.StandsBefore between)
    (h : SpellsUpTo ts between rest) : SpellsUpTo (t :: ts) text rest :=
  fun ts' hts' => spells_cons_iff.mpr ⟨between, htext, ht, h ts' hts'⟩

theorem SpellsUpTo.append {ts ts' : List Token} {text between rest : List Char}
    (h : SpellsUpTo ts text between) (h' : SpellsUpTo ts' between rest) :
    SpellsUpTo (ts ++ ts') text rest := by
  intro tail htail
  rw [List.append_assoc]
  exact h _ (h' tail htail)

/-- Whether some tokens end a type: there are none, or a comma or a closing bracket comes first. -/
def EndsType (ts : List Token) : Prop :=
  ∀ t, ts.head? = some t → t = .comma ∨ t = .closing

theorem EndsType.head? {ts : List Token} {text : List Char} (h : EndsType ts)
    (hspells : Spells ts text) {c : Char} (hc : (trimStart text).head? = some c) :
    c = ',' ∨ c = '>' := by
  cases ts with
  | nil =>
    rw [spells_nil_iff.mp hspells] at hc
    cases hc
  | cons t ts =>
    obtain ⟨rest, htext, -, -⟩ := spells_cons_iff.mp hspells
    rw [htext] at hc
    obtain rfl | rfl := h t rfl
    . exact .inl (Option.some.inj hc).symm
    . exact .inr (Option.some.inj hc).symm

theorem readBrackets_brackets (rest : List Char) :
    readBrackets ('[' :: ']' :: rest) = ((readBrackets rest).1 + 1, (readBrackets rest).2) := rfl

theorem readBrackets_trimStart (text : List Char) :
    readBrackets (trimStart text) = readBrackets text := by
  induction text with
  | nil => rfl
  | cons c cs ih =>
    cases hblank : isBlank c with
    | false => rw [trimStart_cons_of_not_blank hblank]
    | true =>
      have htrim : trimStart (c :: cs) = trimStart cs := List.dropWhile_cons_of_pos hblank
      have hne : c ≠ '[' := by
        rintro rfl
        revert hblank
        decide
      rw [htrim, ih]
      conv_rhs => unfold readBrackets
      split
      . next heq => exact absurd (List.cons.inj heq).1 hne
      . next heq =>
        obtain ⟨rfl, rfl⟩ := List.cons.inj heq
        rw [if_pos hblank]
      . next heq => cases heq

theorem readBrackets_cons_of_blank {c : Char} (h : isBlank c = true) (cs : List Char) :
    readBrackets (c :: cs) = readBrackets cs := by
  have htrim : trimStart (c :: cs) = trimStart cs := List.dropWhile_cons_of_pos h
  rw [← readBrackets_trimStart, htrim, readBrackets_trimStart]

theorem readBrackets_sound {text rest : List Char} {count : Nat}
    (h : readBrackets text = (count, rest)) :
    SpellsUpTo (List.replicate count .brackets) text rest := by
  induction text using readBrackets.induct generalizing count rest with
  | case1 cs n between hread ih =>
    rw [readBrackets_brackets, hread] at h
    cases h
    rw [List.replicate_succ]
    exact (ih hread).cons rfl trivial
  | case2 c cs hne hblank ih =>
    have htrim : trimStart (c :: cs) = trimStart cs := List.dropWhile_cons_of_pos hblank
    rw [readBrackets_cons_of_blank hblank] at h
    intro ts hts
    rw [← spells_trimStart_iff, htrim, spells_trimStart_iff]
    exact ih h ts hts
  | case3 c cs hne hblank =>
    have hnone : readBrackets (c :: cs) = (0, c :: cs) := by
      unfold readBrackets
      split
      . next heq =>
        obtain ⟨rfl, rfl⟩ := List.cons.inj heq
        exact (hne _ rfl rfl).elim
      . next heq =>
        obtain ⟨rfl, rfl⟩ := List.cons.inj heq
        rw [if_neg hblank]
      . next heq => cases heq
    rw [hnone] at h
    cases h
    exact fun _ => id
  | case4 =>
    cases h
    exact fun _ => id

theorem readBrackets_complete {count : Nat} {ts : List Token} {text : List Char}
    (hts : EndsType ts) (h : Spells (List.replicate count .brackets ++ ts) text) :
    ∃ rest, readBrackets text = (count, rest) ∧ Spells ts rest := by
  induction count generalizing text with
  | zero =>
    have hhead : ∀ c, (trimStart text).head? = some c → c = ',' ∨ c = '>' :=
      fun _ hc => hts.head? h hc
    refine ⟨trimStart text, ?_, spells_trimStart_iff.mpr h⟩
    rw [← readBrackets_trimStart]
    unfold readBrackets
    split
    . next heq =>
      obtain hc | hc := hhead _ (congrArg List.head? heq)
      . cases hc
      . cases hc
    . next c cs hne heq =>
      have hblank : isBlank c = false := by
        obtain rfl | rfl := hhead _ (congrArg List.head? heq) <;> decide
      rw [hblank, heq]
      rfl
    . next heq => rw [heq]
  | succ count ih =>
    obtain ⟨between, htext, -, hbetween⟩ := spells_cons_iff.mp h
    obtain ⟨rest, hread, hrest⟩ := ih hbetween
    refine ⟨rest, ?_, hrest⟩
    rw [← readBrackets_trimStart, htext]
    show readBrackets ('[' :: ']' :: between) = _
    rw [readBrackets_brackets, hread]

theorem afterKeyword?_eq_some_iff {keyword : String} {text rest : List Char} :
    afterKeyword? keyword text = some rest ↔
      trimStart text = keyword.toList ++ rest ∧ ∃ c, rest.head? = some c ∧ isBlank c = true := by
  unfold afterKeyword?
  constructor
  . intro h
    split at h
    . next c rest' hstart =>
      split at h
      . next hblank =>
        cases h
        exact ⟨dropStart?_eq_some hstart, c, rfl, hblank⟩
      . cases h
    . cases h
  . rintro ⟨htext, c, hc, hblank⟩
    obtain ⟨cs, rfl⟩ := List.head?_eq_some_iff.mp hc
    rw [htext, dropStart?_append]
    exact if_pos hblank

/-- A name is read just if it is a row of name characters that is as long as it can be, and a type
name. -/
theorem readName_eq_ok_iff {text name rest : List Char} :
    readName text = .ok (name, rest) ↔
      text = name ++ rest ∧ (Token.name name).StandsBefore rest ∧ IsTypeName name := by
  unfold readName
  constructor
  . intro h
    dsimp only at h
    split at h
    . cases h
    . next hempty =>
      split at h
      . cases h
      . next hname =>
        cases h
        refine ⟨(List.takeWhile_append_dropWhile).symm, ⟨?_, ?_, ?_⟩, ?_⟩
        . simpa [List.isEmpty_iff] using hempty
        . exact fun c hc => isNameChar_iff.mp (List.mem_takeWhile_imp hc)
        . intro c hc hin
          have hnot := List.head?_dropWhile_not isNameChar text
          simp [hc, isNameChar_iff.mpr hin] at hnot
        . exact isName_iff.mp (by simpa using hname)
  . rintro ⟨rfl, ⟨hne, hchars, hhead⟩, hname⟩
    have hall : ∀ c ∈ name, isNameChar c = true := fun c hc => isNameChar_iff.mpr (hchars c hc)
    have htake : (name ++ rest).takeWhile isNameChar = name := by
      rw [List.takeWhile_append_of_pos hall]
      cases rest with
      | nil => simp
      | cons c cs => simp [mt isNameChar_iff.mp (hhead c rfl)]
    have hdrop : (name ++ rest).dropWhile isNameChar = rest := by
      rw [List.dropWhile_append_of_pos hall]
      cases rest with
      | nil => rfl
      | cons c cs => simp [mt isNameChar_iff.mp (hhead c rfl)]
    have hempty : name.isEmpty = false := by simpa [List.isEmpty_eq_false_iff] using hne
    simp [htake, hdrop, hempty, isName_iff.mpr hname]

section

variable {read : List Char → Except SignatureError (Signature × List Char)} {room : Nat}

/-- Whether what a reader takes for an argument is one, with fewer than so many levels. -/
def IsSound (room : Nat) (read : List Char → Except SignatureError (Signature × List Char)) : Prop :=
  ∀ text s rest, read text = .ok (s, rest) →
    s.levels < room ∧ ∃ ts, IsArgument ts s ∧ SpellsUpTo ts text rest

/-- Whether a reader takes every argument with fewer than so many levels for one. -/
def IsComplete (room : Nat) (read : List Char → Except SignatureError (Signature × List Char)) :
    Prop :=
  ∀ ts ts' text s, IsArgument ts s → s.levels < room → EndsType ts' → Spells (ts ++ ts') text →
    ∃ rest, read text = .ok (s, rest) ∧ Spells ts' rest

theorem readArguments_sound (hread : IsSound room read) {fuel : Nat} {text rest : List Char}
    {arguments : List Signature} (h : readArguments read fuel text = .ok (arguments, rest)) :
    (∀ a ∈ arguments, a.levels < room) ∧
      ∃ ts, AreArguments ts arguments ∧ SpellsUpTo (ts ++ [.closing]) text rest := by
  induction fuel generalizing text arguments with
  | zero => cases h
  | succ fuel ih =>
    obtain ⟨⟨a, between⟩, ha, h⟩ := bind_eq_ok_iff.mp h
    obtain ⟨hlevels, ts, hts, hspells⟩ := hread _ _ _ ha
    dsimp only at h
    split at h
    . next more hcomma =>
      obtain ⟨⟨as, behind⟩, has, h⟩ := bind_eq_ok_iff.mp h
      cases h
      obtain ⟨hrest, ts', hts', hspells'⟩ := ih has
      refine ⟨List.forall_mem_cons.mpr ⟨hlevels, hrest⟩, _, .more hts hts', ?_⟩
      rw [List.append_assoc]
      exact hspells.append (hspells'.cons hcomma trivial)
    . next behind hclosing =>
      cases h
      refine ⟨List.forall_mem_singleton.mpr hlevels, _, .last hts, ?_⟩
      have hend : SpellsUpTo [] rest rest := fun _ => id
      exact hspells.append (hend.cons hclosing trivial)
    . cases h

theorem IsType.exists_name {ts : List Token} {s : Signature} (h : IsType ts s) :
    ∃ name rest, ts = .name name :: rest := by
  cases h <;> exact ⟨_, _, rfl⟩

theorem IsArgument.ne_nil {ts : List Token} {s : Signature} (h : IsArgument ts s) : ts ≠ [] := by
  cases h with
  | type h =>
    obtain ⟨name, rest, rfl⟩ := h.exists_name
    exact List.cons_ne_nil _ _
  | bounded h => exact List.cons_ne_nil _ _

theorem AreArguments.length_le {ts : List Token} {arguments : List Signature}
    (h : AreArguments ts arguments) : arguments.length ≤ ts.length := by
  induction arguments generalizing ts with
  | nil => exact Nat.zero_le _
  | cons a as ih =>
    cases h with
    | last h => exact List.length_pos_of_ne_nil h.ne_nil
    | more h hrest =>
      have := ih hrest
      simp only [List.length_append, List.length_cons]
      omega

theorem readArguments_complete (hread : IsComplete room read) {fuel : Nat} {ts ts' : List Token}
    {text : List Char} {arguments : List Signature} (h : AreArguments ts arguments)
    (hlevels : ∀ a ∈ arguments, a.levels < room) (hfuel : arguments.length ≤ fuel)
    (hspells : Spells (ts ++ .closing :: ts') text) :
    ∃ rest, readArguments read fuel text = .ok (arguments, rest) ∧ Spells ts' rest := by
  induction arguments generalizing ts fuel text with
  | nil => cases h
  | cons a as ih =>
    obtain ⟨fuel, rfl⟩ : ∃ n, fuel = n + 1 := ⟨fuel - 1, by simp at hfuel; omega⟩
    rw [List.forall_mem_cons] at hlevels
    cases h with
    | last h =>
      have hend : EndsType (.closing :: ts') := fun t ht => .inr (Option.some.inj ht).symm
      obtain ⟨between, ha, hbetween⟩ := hread _ _ _ _ h hlevels.1 hend hspells
      obtain ⟨rest, hclosing, -, hrest⟩ := spells_cons_iff.mp hbetween
      refine ⟨rest, ?_, hrest⟩
      have htext : trimStart between = '>' :: rest := hclosing
      rw [readArguments, ha, ok_bind]
      dsimp only
      rw [htext]
      rfl
    | @more ts₁ ts₂ _ _ h hmore =>
      rw [List.append_assoc] at hspells
      have hend : EndsType (.comma :: (ts₂ ++ .closing :: ts')) :=
        fun t ht => .inl (Option.some.inj ht).symm
      obtain ⟨between, ha, hbetween⟩ := hread _ _ _ _ h hlevels.1 hend hspells
      obtain ⟨behind, hcomma, -, hbehind⟩ := spells_cons_iff.mp hbetween
      obtain ⟨rest, has, hrest⟩ := ih hmore hlevels.2 (by simpa using hfuel) hbehind
      refine ⟨rest, ?_, hrest⟩
      have htext : trimStart between = ',' :: behind := hcomma
      rw [readArguments, ha, ok_bind]
      dsimp only
      rw [htext]
      show (readArguments read fuel behind >>= _) = _
      rw [has]
      rfl

theorem readType_sound (hread : IsSound room read) {text rest : List Char} {s : Signature}
    (h : readType read text = .ok (s, rest)) :
    s.levels ≤ room ∧ ∃ ts, IsType ts s ∧ SpellsUpTo ts text rest := by
  unfold readType at h
  split at h
  . cases h
  . obtain ⟨⟨name, behind⟩, hname, h⟩ := bind_eq_ok_iff.mp h
    obtain ⟨htext, hstands, htype⟩ := readName_eq_ok_iff.mp hname
    dsimp only at h
    split at h
    . next inside hopening =>
      obtain ⟨⟨arguments, between⟩, harguments, h⟩ := bind_eq_ok_iff.mp h
      cases h
      obtain ⟨hlevels, ts, hts, hspells⟩ := readArguments_sound hread harguments
      have hbrackets := readBrackets_sound (Eq.refl (readBrackets between))
      have hmark : Token.opening.StandsBefore inside := trivial
      refine ⟨levelsAmong_le_iff.mpr hlevels, _, .applied htype hts _, ?_⟩
      apply SpellsUpTo.cons htext hstands
      apply SpellsUpTo.cons hopening hmark
      rw [List.append_cons]
      exact hspells.append hbrackets
    . cases h
      have hbrackets := readBrackets_sound (Eq.refl (readBrackets (trimStart behind)))
      refine ⟨Nat.zero_le _, _, .plain htype _, ?_⟩
      apply SpellsUpTo.cons htext hstands
      exact (spellsUpTo_trimStart behind).append hbrackets

theorem wildcard_ne {name behind : List Char} (hstands : (Token.name name).StandsBefore behind)
    (rest : List Char) : name ++ behind ≠ '?' :: rest := by
  obtain ⟨hne, hchars, -⟩ := hstands
  obtain ⟨c, cs, rfl⟩ := List.exists_cons_of_ne_nil hne
  intro heq
  have hc := hchars c List.mem_cons_self
  rw [(List.cons.inj heq).1, ← isNameChar_iff] at hc
  revert hc
  decide

theorem readType_plain {text name behind rest : List Char} {count : Nat}
    (htext : trimStart text = name ++ behind) (hstands : (Token.name name).StandsBefore behind)
    (hname : IsTypeName name) (hopening : ∀ inside, trimStart behind ≠ '<' :: inside)
    (hbrackets : readBrackets behind = (count, rest)) :
    readType read text = .ok (mk (arrayName name count) [], rest) := by
  unfold readType
  rw [htext]
  split
  . next heq => exact absurd heq (wildcard_ne hstands _)
  . rw [readName_eq_ok_iff.mpr ⟨rfl, hstands, hname⟩, ok_bind]
    dsimp only
    split
    . next inside heq => exact absurd heq (hopening inside)
    . rw [ok_bind]
      dsimp only
      rw [readBrackets_trimStart, hbrackets]
      rfl

theorem readType_applied {text name behind inside between rest : List Char}
    {arguments : List Signature} {count : Nat} (htext : trimStart text = name ++ behind)
    (hstands : (Token.name name).StandsBefore behind) (hname : IsTypeName name)
    (hopening : trimStart behind = '<' :: inside)
    (harguments : readArguments read (inside.length + 1) inside = .ok (arguments, between))
    (hbrackets : readBrackets between = (count, rest)) :
    readType read text = .ok (mk (arrayName name count) arguments, rest) := by
  unfold readType
  rw [htext]
  split
  . next heq => exact absurd heq (wildcard_ne hstands _)
  . rw [readName_eq_ok_iff.mpr ⟨rfl, hstands, hname⟩, ok_bind]
    simp only [hopening, harguments, ok_bind, hbrackets]
    rfl

theorem readType_complete (hread : IsComplete room read) {ts ts' : List Token} {text : List Char}
    {s : Signature} (h : IsType ts s) (hlevels : s.levels ≤ room) (hend : EndsType ts')
    (hspells : Spells (ts ++ ts') text) :
    ∃ rest, readType read text = .ok (s, rest) ∧ Spells ts' rest := by
  cases h with
  | @plain name hname count =>
    obtain ⟨behind, htext, hstands, hbehind⟩ := spells_cons_iff.mp hspells
    obtain ⟨rest, hbrackets, hrest⟩ := readBrackets_complete hend hbehind
    refine ⟨rest, readType_plain htext hstands hname ?_ hbrackets, hrest⟩
    intro inside hopening
    cases count with
    | zero =>
      obtain hc | hc := hend.head? hbehind (congrArg List.head? hopening) <;> cases hc
    | succ count =>
      obtain ⟨_, hbracket, -⟩ := spells_cons_iff.mp hbehind
      rw [hopening] at hbracket
      cases hbracket
  | @applied name ts arguments hname harguments count =>
    rw [List.cons_append, List.cons_append, List.append_assoc, List.cons_append] at hspells
    obtain ⟨behind, htext, hstands, hbehind⟩ := spells_cons_iff.mp hspells
    obtain ⟨inside, hopening, -, hinside⟩ := spells_cons_iff.mp hbehind
    have hfuel : arguments.length ≤ inside.length + 1 := by
      have hle := harguments.length_le
      have htokens := length_le_of_spells hinside
      rw [List.length_append] at htokens
      omega
    obtain ⟨between, hread, hbetween⟩ := readArguments_complete hread harguments
      (levelsAmong_le_iff.mp hlevels) hfuel hinside
    obtain ⟨rest, hbrackets, hrest⟩ := readBrackets_complete hend hbetween
    exact ⟨rest, readType_applied htext hstands hname hopening hread hbrackets, hrest⟩

end

theorem isSound_readArgument (room : Nat) : IsSound room (readArgument room) := by
  induction room with
  | zero =>
    intro text s rest h
    cases h
  | succ room ih =>
    intro text s rest h
    unfold readArgument at h
    split at h
    . next behind hwildcard =>
      split at h
      . next inside hbound =>
        obtain ⟨hinside, hblank⟩ := afterKeyword?_eq_some_iff.mp hbound
        obtain ⟨hlevels, ts, hts, hspells⟩ := readType_sound ih h
        have hmark : Token.wildcard.StandsBefore behind := trivial
        have hkeyword : Token.bound.StandsBefore inside := hblank
        refine ⟨Nat.lt_succ_of_le hlevels, _, .bounded hts, ?_⟩
        exact (hspells.cons hinside hkeyword).cons hwildcard hmark
      . split at h <;> cases h
    . obtain ⟨hlevels, ts, hts, hspells⟩ := readType_sound ih h
      refine ⟨Nat.lt_succ_of_le hlevels, _, .type hts, ?_⟩
      exact (spellsUpTo_trimStart text).append hspells

theorem isComplete_readArgument (room : Nat) : IsComplete room (readArgument room) := by
  induction room with
  | zero =>
    intro ts ts' text s _ hlevels
    cases hlevels
  | succ room ih =>
    intro ts ts' text s h hlevels hend hspells
    cases h with
    | type h =>
      obtain ⟨rest, hread, hrest⟩ :=
        readType_complete ih h (Nat.le_of_lt_succ hlevels) hend (spells_trimStart_iff.mpr hspells)
      refine ⟨rest, ?_, hrest⟩
      unfold readArgument
      split
      . next behind heq =>
        obtain ⟨name, ts, rfl⟩ := h.exists_name
        obtain ⟨_, htext, hstands, -⟩ := spells_cons_iff.mp hspells
        exact absurd (htext.symm.trans heq) (wildcard_ne hstands _)
      . exact hread
    | bounded h =>
      obtain ⟨behind, hwildcard, -, hbehind⟩ := spells_cons_iff.mp hspells
      obtain ⟨inside, hinside, hblank, hspells⟩ := spells_cons_iff.mp hbehind
      obtain ⟨rest, hread, hrest⟩ := readType_complete ih h (Nat.le_of_lt_succ hlevels) hend hspells
      refine ⟨rest, ?_, hrest⟩
      have htext : trimStart text = '?' :: behind := hwildcard
      unfold readArgument
      split
      . next heq =>
        rw [htext] at heq
        cases heq
        rw [afterKeyword?_eq_some_iff.mpr ⟨hinside, hblank⟩]
        exact hread
      . next hne => exact absurd htext (hne behind)

/--
A text is read as a signature just if it is spelled with tokens that are a type which the signature
stands for, and arguments are not nested too deep.
-/
theorem parse_eq_ok_iff {source : List Char} {s : Signature} :
    parse source = .ok s ↔ s.levels ≤ depthLimit ∧ ∃ ts, Spells ts source ∧ IsType ts s := by
  unfold parse
  constructor
  . intro h
    obtain ⟨⟨s', rest⟩, hread, h⟩ := bind_eq_ok_iff.mp h
    obtain ⟨hlevels, ts, hts, hspells⟩ := readType_sound (isSound_readArgument depthLimit) hread
    dsimp only at h
    split at h
    . next hrest =>
      cases h
      have hsource := hspells [] (spells_nil_iff.mpr hrest)
      rw [List.append_nil] at hsource
      exact ⟨hlevels, ts, hsource, hts⟩
    . cases h
  . rintro ⟨hlevels, ts, hspells, hts⟩
    rw [← List.append_nil ts] at hspells
    obtain ⟨rest, hread, hrest⟩ :=
      readType_complete (isComplete_readArgument depthLimit) hts hlevels (by simp [EndsType]) hspells
    rw [hread, ok_bind]
    dsimp only
    rw [spells_nil_iff.mp hrest]
    rfl

end Facade.Host.Signature
