import Facade.Proofs.Signature.Reading
import Mathlib.Data.List.Chain

/-!
This module contains the text of a signature, and the proofs about reading it back: a signature that was
read once is read again from its text just if no array in it has arguments. The arguments of such an
array stand behind its brackets in the text, where no arguments are read.
-/

namespace Facade.Host.Signature

open Text Outcome

mutual

def text : Signature → String
  | mk name [] => name
  | mk name (a :: as) => name ++ "<" ++ a.text ++ moreText as ++ ">"

def moreText : List Signature → String
  | [] => ""
  | a :: as => ", " ++ a.text ++ moreText as

end

def IsArrayName (name : String) : Prop :=
  ∃ chars count, (∀ c ∈ chars, InName c) ∧ IsTypeName chars ∧ name = arrayName chars count

mutual

def HasTypeNames : Signature → Prop
  | mk name arguments => IsArrayName name ∧ AllHaveTypeNames arguments

def AllHaveTypeNames : List Signature → Prop
  | [] => True
  | a :: as => a.HasTypeNames ∧ AllHaveTypeNames as

end

mutual

/-- Whether an array has arguments, in the signature or in its arguments. -/
def holdsGenericArray : Signature → Bool
  | mk name arguments =>
    (!arguments.isEmpty && name.toList.getLast? == some ']') || anyHoldsGenericArray arguments

def anyHoldsGenericArray : List Signature → Bool
  | [] => false
  | a :: as => a.holdsGenericArray || anyHoldsGenericArray as

end

theorem spells_cons_of_standsBefore {t : Token} {ts : List Token} {rest : List Char}
    (ht : t.StandsBefore rest) (hts : Spells ts rest) : Spells (t :: ts) (t.chars ++ rest) := by
  have hblanks : ∀ c ∈ ([] : List Char), isBlank c = true := nofun
  exact .cons hblanks ht hts

theorem Spells.inName {ts : List Token} {text : List Char} (h : Spells ts text) {chars : List Char}
    (hname : Token.name chars ∈ ts) : ∀ c ∈ chars, InName c := by
  induction h with
  | nil => cases hname
  | cons _ ht _ ih =>
    obtain rfl | hname := List.mem_cons.mp hname
    . exact ht.2.1
    . exact ih hname

mutual

theorem hasTypeNames_of_isType : ∀ (s : Signature) {ts : List Token},
    (∀ chars, Token.name chars ∈ ts → ∀ c ∈ chars, InName c) → IsType ts s → s.HasTypeNames
  | mk _ arguments, _, hchars, h => by
    cases h with
    | @plain chars hname count =>
      exact ⟨⟨chars, count, hchars chars List.mem_cons_self, hname, rfl⟩, trivial⟩
    | @applied chars ts _ hname harguments count =>
      refine ⟨⟨chars, count, hchars chars List.mem_cons_self, hname, rfl⟩, ?_⟩
      exact allHaveTypeNames_of_areArguments arguments (fun chars hmem => hchars chars (by simp [hmem]))
        harguments

theorem allHaveTypeNames_of_areArguments : ∀ (as : List Signature) {ts : List Token},
    (∀ chars, Token.name chars ∈ ts → ∀ c ∈ chars, InName c) → AreArguments ts as →
      AllHaveTypeNames as
  | [], _, _, _ => trivial
  | a :: as, _, hchars, h => by
    have hfirst : ∀ ts, (∀ chars, Token.name chars ∈ ts → ∀ c ∈ chars, InName c) →
        IsArgument ts a → a.HasTypeNames := by
      intro ts hchars h
      cases h with
      | type h => exact hasTypeNames_of_isType a hchars h
      | bounded h => exact hasTypeNames_of_isType a (fun chars hmem => hchars chars (by simp [hmem])) h
    cases h with
    | last h => exact ⟨hfirst _ hchars h, trivial⟩
    | more h hrest =>
      exact ⟨hfirst _ (fun chars hmem => hchars chars (by simp [hmem])) h,
        allHaveTypeNames_of_areArguments as (fun chars hmem => hchars chars (by simp [hmem])) hrest⟩

end

theorem hasTypeNames_of_parse {source : List Char} {s : Signature} (h : parse source = .ok s) :
    s.HasTypeNames := by
  obtain ⟨-, ts, hspells, hts⟩ := parse_eq_ok_iff.mp h
  exact hasTypeNames_of_isType s (fun _ => hspells.inName) hts

def EndsName (text : List Char) : Prop :=
  ∀ c, text.head? = some c → ¬ InName c

/-- Whether a text is spelled with some tokens, whatever stands behind it that no name goes on with. -/
def Writes (ts : List Token) (text : List Char) : Prop :=
  ∀ ts' rest, Spells ts' rest → EndsName rest → Spells (ts ++ ts') (text ++ rest)

section

variable {ts us : List Token} {text text' : List Char} {c : Char}

theorem endsName_nil : EndsName [] := nofun

theorem not_inName (h : isNameChar c = false) : ¬ InName c := by
  rw [← isNameChar_iff, h]
  nofun

theorem endsName_cons (h : isNameChar c = false) (cs : List Char) : EndsName (c :: cs) := by
  intro d hd
  obtain rfl := Option.some.inj hd
  exact not_inName h

theorem EndsName.append (h : EndsName text) (h' : EndsName text') : EndsName (text ++ text') := by
  cases text with
  | nil => exact h'
  | cons c cs => exact h

theorem writes_nil : Writes [] [] := fun _ _ h _ => h

theorem Writes.append (h : Writes ts text) (h' : Writes us text') (hends : EndsName text') :
    Writes (ts ++ us) (text ++ text') := by
  intro ts' rest hrest hrestEnds
  rw [List.append_assoc, List.append_assoc]
  exact h _ _ (h' _ _ hrest hrestEnds) (hends.append hrestEnds)

theorem Writes.blank (h : Writes ts text) (hc : isBlank c = true) : Writes ts (c :: text) := by
  intro ts' rest hrest hends
  have htrim : trimStart (c :: (text ++ rest)) = trimStart (text ++ rest) :=
    List.dropWhile_cons_of_pos hc
  rw [List.cons_append, ← spells_trimStart_iff, htrim, spells_trimStart_iff]
  exact h ts' rest hrest hends

theorem Writes.mark {t : Token} (ht : ∀ rest, t.StandsBefore rest) (h : Writes ts text) :
    Writes (t :: ts) (t.chars ++ text) := by
  intro ts' rest hrest hends
  rw [List.append_assoc]
  exact spells_cons_of_standsBefore (ht _) (h ts' rest hrest hends)

theorem writes_name {chars : List Char} (hchars : ∀ c ∈ chars, InName c) (hname : IsTypeName chars) :
    Writes [.name chars] chars := by
  intro ts' rest hrest hends
  refine spells_cons_of_standsBefore ⟨?_, hchars, hends⟩ hrest
  rintro rfl
  obtain ⟨c, cs, hsegment, -⟩ := hname [] List.mem_cons_self
  cases hsegment

theorem writes_brackets (count : Nat) :
    Writes (List.replicate count .brackets) (List.replicate count ['[', ']']).flatten := by
  induction count with
  | zero => exact writes_nil
  | succ count ih =>
    rw [List.replicate_succ, List.replicate_succ, List.flatten_cons]
    exact ih.mark (t := .brackets) fun _ => trivial

theorem endsName_brackets (count : Nat) : EndsName (List.replicate count ['[', ']']).flatten := by
  cases count with
  | zero => exact endsName_nil
  | succ count => exact endsName_cons (by decide) _

end

theorem arrayName_eq_of_getLast? {chars : List Char} {count : Nat}
    (h : (arrayName chars count).toList.getLast? ≠ some ']') : count = 0 := by
  cases count with
  | zero => rfl
  | succ count =>
    rw [arrayName, String.toList_ofList, List.replicate_succ', List.flatten_concat,
      ← List.append_assoc, List.getLast?_append] at h
    exact absurd rfl h

theorem endsName_moreText (as : List Signature) : EndsName (moreText as).toList := by
  cases as with
  | nil => exact endsName_nil
  | cons a as =>
    rw [moreText, String.append_assoc, String.toList_append]
    exact endsName_cons (by decide) _

mutual

theorem exists_writes_text : ∀ s : Signature, s.HasTypeNames → s.holdsGenericArray = false →
    ∃ ts, IsType ts s ∧ Writes ts s.text.toList
  | mk name [], hnames, _ => by
    obtain ⟨⟨chars, count, hchars, hname, rfl⟩, -⟩ := hnames
    refine ⟨_, .plain hname count, ?_⟩
    rw [text, arrayName, String.toList_ofList]
    exact (writes_name hchars hname).append (writes_brackets count) (endsName_brackets count)
  | mk name (a :: as), hnames, harrays => by
    obtain ⟨⟨chars, count, hchars, hname, rfl⟩, hfirst, hrest⟩ := hnames
    rw [holdsGenericArray, anyHoldsGenericArray] at harrays
    simp only [List.isEmpty_cons, Bool.not_false, Bool.true_and, Bool.or_eq_false_iff,
      beq_eq_false_iff_ne] at harrays
    obtain ⟨hlast, hfirstArrays, hrestArrays⟩ := harrays
    obtain rfl := arrayName_eq_of_getLast? hlast
    obtain ⟨ts, hts, hwrites⟩ := exists_writes_text a hfirst hfirstArrays
    obtain ⟨us, hus, hmore⟩ := exists_writes_moreText as hrest hrestArrays
    refine ⟨_, .applied hname (hus _ _ (.type hts)) 0, ?_⟩
    have hclosing : Writes [.closing] ['>'] := writes_nil.mark (t := .closing) fun _ => trivial
    have hbehind : Writes (us ++ [.closing]) ((moreText as).toList ++ ['>']) :=
      hmore.append hclosing (endsName_cons (by decide) _)
    have hinside : Writes (ts ++ (us ++ [.closing])) (a.text.toList ++ ((moreText as).toList ++ ['>'])) :=
      hwrites.append hbehind ((endsName_moreText as).append (endsName_cons (by decide) _))
    have hopening := hinside.mark (t := .opening) fun _ => trivial
    have hall := (writes_name hchars hname).append hopening (endsName_cons (by decide) _)
    have htext : (mk (arrayName chars 0) (a :: as)).text.toList =
        chars ++ (['<'] ++ (a.text.toList ++ ((moreText as).toList ++ ['>']))) := by
      simp [text, arrayName]
    rw [htext, List.append_assoc]
    exact hall

theorem exists_writes_moreText : ∀ as : List Signature, AllHaveTypeNames as →
    anyHoldsGenericArray as = false →
      ∃ ts, (∀ us a, IsArgument us a → AreArguments (us ++ ts) (a :: as)) ∧
        Writes ts (moreText as).toList
  | [], _, _ => by
    refine ⟨[], fun us a ha => ?_, writes_nil⟩
    rw [List.append_nil]
    exact .last ha
  | a :: as, hnames, harrays => by
    rw [anyHoldsGenericArray, Bool.or_eq_false_iff] at harrays
    obtain ⟨ts, hts, hwrites⟩ := exists_writes_text a hnames.1 harrays.1
    obtain ⟨us, hus, hmore⟩ := exists_writes_moreText as hnames.2 harrays.2
    refine ⟨.comma :: (ts ++ us), fun vs b hb => .more hb (hus ts a (.type hts)), ?_⟩
    have hspace : isBlank ' ' = true := by decide
    have hbehind : Writes (ts ++ us) (a.text.toList ++ (moreText as).toList) :=
      hwrites.append hmore (endsName_moreText as)
    have hcomma := (hbehind.blank hspace).mark (t := .comma) fun _ => trivial
    have htext : (moreText (a :: as)).toList =
        [','] ++ (' ' :: (a.text.toList ++ (moreText as).toList)) := by
      simp [moreText]
    rw [htext]
    exact hcomma

end

theorem parse_text {s : Signature} (hnames : s.HasTypeNames) (hlevels : s.levels ≤ depthLimit)
    (harrays : s.holdsGenericArray = false) : parse s.text.toList = .ok s := by
  obtain ⟨ts, hts, hwrites⟩ := exists_writes_text s hnames harrays
  refine parse_eq_ok_iff.mpr ⟨hlevels, ts, ?_, hts⟩
  simpa using hwrites [] [] (.nil nofun) endsName_nil

/-- Whether one token may come behind another one: no arguments come behind brackets. -/
def Token.MayPrecede (t u : Token) : Prop :=
  u = .opening → t ≠ .brackets

mutual

theorem isChain_of_isType : ∀ (s : Signature) {ts : List Token}, IsType ts s →
    ts.IsChain Token.MayPrecede
  | mk _ arguments, _, h => by
    have hbrackets : ∀ count, (List.replicate count Token.brackets).IsChain Token.MayPrecede :=
      fun count => List.isChain_replicate_of_rel count nofun
    cases h with
    | @plain chars hname count =>
      rw [List.isChain_cons]
      exact ⟨fun _ _ _ => nofun, hbrackets count⟩
    | @applied chars ts _ hname harguments count =>
      have hbehind : (Token.closing :: List.replicate count .brackets).IsChain Token.MayPrecede :=
        List.isChain_cons.mpr ⟨fun _ _ _ => nofun, hbrackets count⟩
      have hinside : (ts ++ Token.closing :: List.replicate count .brackets).IsChain Token.MayPrecede := by
        refine (isChain_of_areArguments arguments harguments).append hbehind ?_
        rintro t - _ hclosing hopening
        cases hclosing
        cases hopening
      have hopening : (Token.opening ::
          (ts ++ Token.closing :: List.replicate count .brackets)).IsChain Token.MayPrecede :=
        List.isChain_cons.mpr ⟨fun _ _ _ => nofun, hinside⟩
      exact List.isChain_cons_cons.mpr ⟨fun _ => nofun, hopening⟩

theorem isChain_of_areArguments : ∀ (as : List Signature) {ts : List Token}, AreArguments ts as →
    ts.IsChain Token.MayPrecede
  | [], _, h => by cases h
  | a :: as, _, h => by
    have hfirst : ∀ ts, IsArgument ts a → ts.IsChain Token.MayPrecede := by
      intro ts h
      cases h with
      | type h => exact isChain_of_isType a h
      | bounded h =>
        rw [List.isChain_cons_cons, List.isChain_cons]
        exact ⟨nofun, fun _ _ _ => nofun, isChain_of_isType a h⟩
    cases h with
    | last h => exact hfirst _ h
    -- a comma stands between two arguments, so that no name meets another
    | more h hrest =>
      refine (hfirst _ h).append
        (List.isChain_cons.mpr ⟨fun _ _ _ => nofun, isChain_of_areArguments as hrest⟩) ?_
      rintro t - _ hcomma hopening
      cases hcomma
      cases hopening

end

def MayAdjoin (c d : Char) : Prop :=
  d = '<' → c ≠ ']'

theorem isChain_of_not_mem {text : List Char} (h : '<' ∉ text) : text.IsChain MayAdjoin := by
  induction text with
  | nil => exact .nil
  | cons c text ih =>
    have htext : '<' ∉ text := List.not_mem_of_not_mem_cons h
    refine List.isChain_cons.mpr ⟨?_, ih htext⟩
    rintro d hd rfl
    exact absurd (List.mem_of_head? hd) htext

theorem not_mem_of_isBlank {text : List Char} (h : ∀ c ∈ text, isBlank c = true) {c : Char}
    (hc : isBlank c = false) : c ∉ text := by
  intro hmem
  rw [h c hmem] at hc
  cases hc

theorem Token.StandsBefore.isChain_chars {t : Token} {rest : List Char} (h : t.StandsBefore rest) :
    t.chars.IsChain MayAdjoin := by
  cases t with
  | opening => exact .singleton _
  | name chars =>
    apply isChain_of_not_mem
    intro hmem
    exact not_inName (by decide) (h.2.1 _ hmem)
  | closing => exact isChain_of_not_mem (by decide)
  | comma => exact isChain_of_not_mem (by decide)
  | brackets => exact isChain_of_not_mem (by decide)
  | wildcard => exact isChain_of_not_mem (by decide)
  | bound => exact isChain_of_not_mem (by decide)

theorem Token.StandsBefore.eq_brackets {t : Token} {rest : List Char} (h : t.StandsBefore rest)
    (hlast : t.chars.getLast? = some ']') : t = .brackets := by
  cases t with
  | brackets => rfl
  | name chars => exact absurd (h.2.1 _ (List.mem_of_getLast? hlast)) (not_inName (by decide))
  | opening | closing | comma | wildcard | bound => exact absurd hlast (by decide)

theorem Spells.head?_eq_opening {ts : List Token} {text : List Char} (h : Spells ts text)
    (hhead : text.head? = some '<') : ts.head? = some .opening := by
  cases h with
  | nil hblanks => exact absurd (List.mem_of_head? hhead) (not_mem_of_isBlank hblanks (by decide))
  | @cons blanks rest t ts hblanks ht hts =>
    obtain ⟨c, cs, hchars, -⟩ := ht.exists_head
    cases blanks with
    | cons b blanks =>
      obtain rfl := Option.some.inj hhead
      exact absurd List.mem_cons_self (not_mem_of_isBlank hblanks (by decide))
    | nil =>
      rw [hchars] at hhead
      obtain rfl := Option.some.inj hhead
      cases t with
      | opening => rfl
      | name chars =>
        have hmem : '<' ∈ chars := by
          rw [show chars = '<' :: cs from hchars]
          exact List.mem_cons_self
        exact absurd (ht.2.1 _ hmem) (not_inName (by decide))
      | closing | comma | brackets | wildcard | bound => cases hchars

/-- Where no arguments come behind brackets among the tokens, none do so in the text. -/
theorem Spells.isChain {ts : List Token} {text : List Char} (h : Spells ts text)
    (hchain : ts.IsChain Token.MayPrecede) : text.IsChain MayAdjoin := by
  induction h with
  | nil hblanks => exact isChain_of_not_mem (not_mem_of_isBlank hblanks (by decide))
  | @cons blanks rest t ts hblanks ht hts ih =>
    obtain ⟨hfirst, hrest⟩ := List.isChain_cons.mp hchain
    obtain ⟨c, cs, hchars, -⟩ := ht.exists_head
    have hblanksChain := isChain_of_not_mem (not_mem_of_isBlank hblanks (c := '<') (by decide))
    have htoken : (blanks ++ t.chars).IsChain MayAdjoin := by
      refine hblanksChain.append ht.isChain_chars ?_
      rintro _ hlast d - - rfl
      exact not_mem_of_isBlank hblanks (by decide) (List.mem_of_getLast? hlast)
    refine htoken.append (ih hrest) ?_
    rintro _ hlast _ hhead rfl rfl
    have hne : t.chars ≠ [] := by
      rw [hchars]
      exact List.cons_ne_nil _ _
    rw [List.getLast?_append_of_ne_nil _ hne] at hlast
    exact hfirst _ (hts.head?_eq_opening hhead) rfl (ht.eq_brackets hlast)

mutual

theorem not_isChain_text : ∀ s : Signature, s.holdsGenericArray = true →
    ¬ s.text.toList.IsChain MayAdjoin
  | mk name [], harray, _ => by
    rw [holdsGenericArray, anyHoldsGenericArray] at harray
    cases harray
  | mk name (a :: as), harray, hchain => by
    simp only [text, String.toList_append] at hchain
    rw [holdsGenericArray, anyHoldsGenericArray] at harray
    simp only [List.isEmpty_cons, Bool.not_false, Bool.true_and, Bool.or_eq_true, beq_iff_eq] at harray
    obtain hname | hfirst | hrest := harray
    . have hopening := hchain.left_of_append.left_of_append.left_of_append
      exact (List.isChain_append.mp hopening).2.2 _ hname _ rfl rfl rfl
    . exact not_isChain_text a hfirst hchain.left_of_append.left_of_append.right_of_append
    . exact not_isChain_moreText as hrest hchain.left_of_append.right_of_append

theorem not_isChain_moreText : ∀ as : List Signature, anyHoldsGenericArray as = true →
    ¬ (moreText as).toList.IsChain MayAdjoin
  | [], harray, _ => by cases harray
  | a :: as, harray, hchain => by
    rw [anyHoldsGenericArray, Bool.or_eq_true] at harray
    simp only [moreText, String.toList_append] at hchain
    obtain hfirst | hrest := harray
    . exact not_isChain_text a hfirst hchain.left_of_append.right_of_append
    . exact not_isChain_moreText as hrest hchain.right_of_append

end

theorem parse_text_ne_ok {s : Signature} (harray : s.holdsGenericArray = true) (s' : Signature) :
    parse s.text.toList ≠ .ok s' := by
  intro h
  obtain ⟨-, ts, hspells, hts⟩ := parse_eq_ok_iff.mp h
  exact not_isChain_text s harray (hspells.isChain (isChain_of_isType s' hts))

theorem parse_text_iff {source : List Char} {s : Signature} (h : parse source = .ok s) :
    parse s.text.toList = .ok s ↔ s.holdsGenericArray = false := by
  constructor
  . intro hagain
    rw [← Bool.not_eq_true]
    intro harray
    exact parse_text_ne_ok harray s hagain
  . exact parse_text (hasTypeNames_of_parse h) (parse_eq_ok_iff.mp h).1

end Facade.Host.Signature
