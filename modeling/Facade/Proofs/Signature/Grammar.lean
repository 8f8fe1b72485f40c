import Facade.Host.Signature
import Facade.Proofs.Names

/-!
This module contains the grammar of type signatures: which rows of tokens are types and arguments,
for which signature they stand, and which texts are spelled with them.
-/

namespace Facade.Host.Signature

open Text

/-- A token of a signature. -/
inductive Token where
  | name (chars : List Char)
  | opening
  | closing
  | comma
  | brackets
  | wildcard
  /-- The keyword between a wildcard and its upper bound. -/
  | bound

def Token.chars : Token → List Char
  | name chars => chars
  | opening => ['<']
  | closing => ['>']
  | comma => [',']
  | brackets => ['[', ']']
  | wildcard => ['?']
  | bound => "extends".toList

theorem Token.chars_name (chars : List Char) : (Token.name chars).chars = chars := rfl

def InName (c : Char) : Prop :=
  isWordChar c = true ∨ c = '_' ∨ c = '$' ∨ c = '.'

/-- Whether a token may stand in front of a rest of the text. A name is as long as it can be, and white
space follows the keyword. -/
def Token.StandsBefore (rest : List Char) : Token → Prop
  | name chars => chars ≠ [] ∧ (∀ c ∈ chars, InName c) ∧ ∀ c, rest.head? = some c → ¬ InName c
  | bound => ∃ c, rest.head? = some c ∧ isBlank c = true
  | _ => True

/-- Whether a text is spelled with some tokens, with any white space around them. -/
inductive Spells : List Token → List Char → Prop where
  | nil {blanks : List Char} (hblanks : ∀ c ∈ blanks, isBlank c = true) : Spells [] blanks
  | cons {blanks rest : List Char} {t : Token} {ts : List Token}
      (hblanks : ∀ c ∈ blanks, isBlank c = true) (ht : t.StandsBefore rest) (hts : Spells ts rest) :
      Spells (t :: ts) (blanks ++ t.chars ++ rest)

/-- Whether the parts of a row of characters between dots are those of a type name. None of them is
empty or starts with a digit from `0` to `9`. -/
def IsTypeName (chars : List Char) : Prop :=
  ∀ segment ∈ pieces (· == '.') chars, ∃ c cs, segment = c :: cs ∧ ¬ ('0' ≤ c ∧ c ≤ '9')

def arrayName (chars : List Char) (count : Nat) : String :=
  String.ofList (chars ++ (List.replicate count ['[', ']']).flatten)

mutual

/-- Whether some tokens are a type, which a signature stands for. -/
inductive IsType : List Token → Signature → Prop where
  | plain {chars : List Char} (hname : IsTypeName chars) (count : Nat) :
      IsType (.name chars :: List.replicate count .brackets) (.mk (arrayName chars count) [])
  | applied {chars : List Char} {ts : List Token} {arguments : List Signature}
      (hname : IsTypeName chars) (harguments : AreArguments ts arguments) (count : Nat) :
      IsType (.name chars :: .opening :: (ts ++ .closing :: List.replicate count .brackets))
        (.mk (arrayName chars count) arguments)

/-- Whether some tokens are an argument of a type. An upper bound stands for its wildcard. -/
inductive IsArgument : List Token → Signature → Prop where
  | type {ts : List Token} {s : Signature} (h : IsType ts s) : IsArgument ts s
  | bounded {ts : List Token} {s : Signature} (h : IsType ts s) :
      IsArgument (.wildcard :: .bound :: ts) s

/-- Whether some tokens are arguments with commas between them. There is at least one. -/
inductive AreArguments : List Token → List Signature → Prop where
  | last {ts : List Token} {s : Signature} (h : IsArgument ts s) : AreArguments ts [s]
  | more {ts ts' : List Token} {s : Signature} {arguments : List Signature} (h : IsArgument ts s)
      (hrest : AreArguments ts' arguments) : AreArguments (ts ++ .comma :: ts') (s :: arguments)

end

mutual

/-- The number of levels of arguments that are nested in each other. -/
def levels : Signature → Nat
  | mk _ arguments => levelsAmong arguments

def levelsAmong : List Signature → Nat
  | [] => 0
  | a :: as => max (a.levels + 1) (levelsAmong as)

end

theorem levelsAmong_le_iff {as : List Signature} {n : Nat} :
    levelsAmong as ≤ n ↔ ∀ a ∈ as, a.levels < n := by
  induction as with
  | nil => simp [levelsAmong]
  | cons a as ih =>
    rw [levelsAmong, Nat.max_le, ih, List.forall_mem_cons]
    exact Iff.rfl

theorem isNameChar_iff {c : Char} : isNameChar c = true ↔ InName c := by
  simp [isNameChar, InName, or_assoc]

theorem isName_iff {chars : List Char} : isName chars = true ↔ IsTypeName chars := by
  rw [isName, List.all_eq_true]
  apply forall₂_congr
  intro segment _
  cases segment with
  | nil => simp [isNameSegment]
  | cons c cs => simp [isNameSegment, isPlainDigit, imp_iff_not_or]

def blankCodes : List Nat :=
  List.range' 9 5 ++ [32, 133, 160, 5760] ++ List.range' 8192 11 ++ [8232, 8233, 8239, 8287, 12288]

theorem toNat_mem_blankCodes {c : Char} (h : isBlank c = true) : c.toNat ∈ blankCodes := by
  simp only [isBlank, Bool.or_eq_true, Bool.and_eq_true, decide_eq_true_eq, beq_iff_eq] at h
  simp only [blankCodes, List.mem_append, List.mem_range'_1, List.mem_cons, List.not_mem_nil,
    or_false]
  omega

set_option maxRecDepth 2000 in
theorem isNameChar_of_isBlank {c : Char} (h : isBlank c = true) : isNameChar c = false := by
  have hcodes : ∀ n ∈ blankCodes, isNameChar (Char.ofNat n) = false := by decide
  have hblank := hcodes c.toNat (toNat_mem_blankCodes h)
  rwa [Char.ofNat_toNat] at hblank

theorem isBlank_of_inName {c : Char} (h : InName c) : isBlank c = false := by
  cases hblank : isBlank c with
  | false => rfl
  | true =>
    rw [← isNameChar_iff, isNameChar_of_isBlank hblank] at h
    cases h

end Facade.Host.Signature
