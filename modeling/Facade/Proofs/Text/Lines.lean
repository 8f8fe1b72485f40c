import Facade.Text.Blank
import Facade.Text.Pieces
import Mathlib.Data.List.DropRight
import Mathlib.Data.List.TakeWhile
import Mathlib.Tactic.SplitIfs

/-!
This module contains the proofs about texts as bytes and as lines: what comes behind the white space at
the start of a text, which bytes a text has, that a line feed is one byte and no part of another
character, and what the lines of a text are.
-/

namespace Facade.Text

theorem trimStart_append {blanks : List Char} (h : ∀ c ∈ blanks, isBlank c = true)
    (text : List Char) : trimStart (blanks ++ text) = trimStart text :=
  List.dropWhile_append_of_pos h

theorem trimStart_cons_of_not_blank {c : Char} (h : isBlank c = false) (cs : List Char) :
    trimStart (c :: cs) = c :: cs :=
  List.dropWhile_cons_of_neg (by simp [h])

theorem trimStart_trimStart (text : List Char) : trimStart (trimStart text) = trimStart text :=
  List.dropWhile_idempotent _ _

def indent (text : List Char) : List Char :=
  text.takeWhile isBlank

theorem isBlank_of_mem_indent {text : List Char} {c : Char} (h : c ∈ indent text) :
    isBlank c = true :=
  List.mem_takeWhile_imp h

theorem indent_append_trimStart (text : List Char) : indent text ++ trimStart text = text :=
  List.takeWhile_append_dropWhile

theorem exists_blanks (text : List Char) :
    ∃ blanks, (∀ c ∈ blanks, isBlank c = true) ∧ text = blanks ++ trimStart text :=
  ⟨indent text, fun _ hc => isBlank_of_mem_indent hc, (indent_append_trimStart text).symm⟩

def bytes (text : List Char) : List UInt8 :=
  text.flatMap String.utf8EncodeChar

@[simp]
theorem bytes_append (text rest : List Char) : bytes (text ++ rest) = bytes text ++ bytes rest :=
  List.flatMap_append

theorem bytes_toList (s : String) : bytes s.toList = s.toByteArray.data.toList := by
  rw [← String.utf8Encode_toList, List.utf8Encode, List.toList_data_toByteArray, bytes]

theorem length_bytes (text : List Char) : (bytes text).length = byteLength text := by
  induction text with
  | nil => rfl
  | cons c cs ih =>
    rw [byteLength, ← ih, bytes, List.flatMap_cons, List.length_append, String.length_utf8EncodeChar,
      bytes]

theorem byteLength_toList (s : String) : byteLength s.toList = s.utf8ByteSize := by
  rw [← length_bytes, bytes_toList, Array.length_toList]
  rfl

@[simp]
theorem byteLength_append (text rest : List Char) :
    byteLength (text ++ rest) = byteLength text + byteLength rest := by
  rw [← length_bytes, bytes_append, List.length_append, length_bytes, length_bytes]

def lineFeed : UInt8 := 10

theorem high_of_mem {c : Char} (hc : ¬ c.val.toNat ≤ 127) :
    ∀ b ∈ String.utf8EncodeChar c, 128 ≤ b.toNat := by
  rw [String.utf8EncodeChar, if_neg hc]
  split_ifs
  all_goals
    simp only [List.forall_mem_cons, List.not_mem_nil, false_imp_iff, implies_true, and_true,
      UInt8.toNat_ofNat']
    omega

/-- The byte of a line feed is in no other character. -/
theorem eq_of_lineFeed_mem {c : Char} (h : lineFeed ∈ String.utf8EncodeChar c) : c = '\n' := by
  by_cases hc : c.val.toNat ≤ 127
  . rw [String.utf8EncodeChar, if_pos hc, List.mem_singleton] at h
    have hmod : 10 = c.val.toNat % 256 := congrArg UInt8.toNat h
    rw [← Char.toNat_inj]
    change c.val.toNat = 10
    omega
  . exact absurd (high_of_mem hc lineFeed h) (by decide)

theorem lineFeed_not_mem_bytes {line : List Char} (h : '\n' ∉ line) : lineFeed ∉ bytes line := by
  rw [bytes, List.mem_flatMap]
  rintro ⟨c, hc, hmem⟩
  exact h (eq_of_lineFeed_mem hmem ▸ hc)

theorem bytes_cons_lineFeed (text : List Char) : bytes ('\n' :: text) = lineFeed :: bytes text := rfl

/-- What the lines of a text are: each of them ends with a line feed, but for the last one if the text
does not, and has no line feed before its end. -/
inductive Lines : (text : List Char) → List (List Char) → Prop where
  | nothing : Lines [] []
  | last {line : List Char} : line ≠ [] → '\n' ∉ line → Lines line [line]
  | next {line text : List Char} {lines : List (List Char)} : '\n' ∉ line → Lines text lines →
    Lines (line ++ '\n' :: text) ((line ++ ['\n']) :: lines)

theorem Lines.flatten {text : List Char} {lines : List (List Char)} (h : Lines text lines) :
    lines.flatten = text := by
  induction h with
  | nothing => rfl
  | last _ _ => exact List.flatten_singleton
  | next _ _ ih => rw [List.flatten_cons, ih, List.append_assoc, List.singleton_append]

theorem lines_linesWithEnds (text : List Char) : Lines text (linesWithEnds text) := by
  induction text with
  | nil => exact .nothing
  | cons c cs ih =>
    rw [linesWithEnds]
    split
    . next hend =>
      rw [hend]
      exact @Lines.next [] cs _ List.not_mem_nil ih
    . next hend =>
      -- The character is put in front of the first line of the rest, if there is one.
      have hfree : ∀ {line : List Char}, '\n' ∉ line → '\n' ∉ c :: line := by
        intro line hline hmem
        obtain heq | hmem := List.mem_cons.mp hmem
        . exact hend heq.symm
        . exact hline hmem
      generalize linesWithEnds cs = lines at ih
      cases ih with
      | nothing => exact .last (List.cons_ne_nil _ _) (hfree List.not_mem_nil)
      | last _ hline => exact .last (List.cons_ne_nil _ _) (hfree hline)
      | @next line text lines hline htext => exact @Lines.next (c :: line) text lines (hfree hline) htext

end Facade.Text
