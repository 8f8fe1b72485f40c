import Facade.Input.Error
import Facade.Proofs.Text.Lines

/-!
This module contains the proofs about places that are given by a line and a column: such a place is
found again in the text, as the byte that it was taken from.
-/

namespace Facade.Input

open Text

/-- The line that some bytes lead into, counted from one. Every line but the first has a line feed
before it. -/
def lineBehind (before : List UInt8) : Nat :=
  before.count lineFeed + 1

def columnBehind (before : List UInt8) : Nat :=
  (before.reverse.takeWhile (· != lineFeed)).length + 1

section

variable {before line : List UInt8}

theorem lineBehind_of_not_mem (h : lineFeed ∉ before) : lineBehind before = 1 := by
  rw [lineBehind, List.count_eq_zero_of_not_mem h]

theorem columnBehind_of_not_mem (h : lineFeed ∉ before) :
    columnBehind before = before.length + 1 := by
  have hall : ∀ b ∈ before.reverse, (b != lineFeed) = true := by
    intro b hb
    rw [List.mem_reverse] at hb
    exact bne_iff_ne.mpr fun heq => h (heq ▸ hb)
  rw [columnBehind, List.takeWhile_eq_self_iff.mpr hall, List.length_reverse]

theorem lineBehind_append (h : lineFeed ∉ line) :
    lineBehind (line ++ lineFeed :: before) = lineBehind before + 1 := by
  rw [lineBehind, lineBehind, List.count_append, List.count_eq_zero_of_not_mem h,
    List.count_cons_self, Nat.zero_add]

theorem columnBehind_append (line before : List UInt8) :
    columnBehind (line ++ lineFeed :: before) = columnBehind before := by
  have hend : (lineFeed :: line.reverse).takeWhile (· != lineFeed) = [] :=
    List.takeWhile_cons_of_neg (by simp)
  rw [columnBehind, columnBehind, List.reverse_append, List.reverse_cons, List.append_assoc,
    List.singleton_append, List.takeWhile_append, hend, List.append_nil]
  split
  . next hall => rw [hall]
  . rfl

end

theorem size_before_first {line : List Char} (hline : '\n' ∉ line) (lines : List (List Char))
    {before : List UInt8} (h : before <+: bytes line) :
    byteLength (lines.take (lineBehind before - 1)).flatten + (columnBehind before - 1) =
      before.length := by
  have hfree : lineFeed ∉ before := fun hmem => lineFeed_not_mem_bytes hline (h.subset hmem)
  rw [lineBehind_of_not_mem hfree, columnBehind_of_not_mem hfree]
  exact Nat.zero_add _

/-- What is before a place: the lines before its own, and the bytes of its own line up to it. -/
theorem size_before {text : List Char} {lines : List (List Char)} (h : Lines text lines)
    (offset : Nat) :
    byteLength (lines.take (lineBehind ((bytes text).take offset) - 1)).flatten +
      (columnBehind ((bytes text).take offset) - 1) = min offset (byteLength text) := by
  induction h generalizing offset with
  | nothing =>
    rw [size_before_first List.not_mem_nil _ (List.take_prefix _ _), List.length_take, length_bytes]
  | last _ hline =>
    rw [size_before_first hline _ (List.take_prefix _ _), List.length_take, length_bytes]
  | @next line text lines hline htext ih =>
    rw [bytes_append, bytes_cons_lineFeed, byteLength_append, byteLength]
    obtain hbefore | hbehind := Nat.lt_or_ge (byteLength line) offset
    -- a place in the first line comes first, and then one behind its line feed
    rotate_left
    . have hlength : offset ≤ (bytes line).length := by rwa [length_bytes]
      rw [List.take_append_of_le_length hlength, size_before_first hline _ (List.take_prefix _ _),
        List.length_take_of_le hlength]
      omega
    . obtain ⟨rest, rfl⟩ : ∃ rest, offset = (bytes line).length + (rest + 1) := by
        rw [length_bytes]
        exact ⟨offset - byteLength line - 1, by omega⟩
      rw [List.take_length_add_append, List.take_succ_cons,
        lineBehind_append (lineFeed_not_mem_bytes hline), columnBehind_append, Nat.add_sub_cancel,
        lineBehind, List.take_succ_cons, List.flatten_cons, byteLength_append, byteLength_append,
        length_bytes]
      have hrest := ih rest
      rw [lineBehind, Nat.add_sub_cancel] at hrest
      have hfeed : byteLength ['\n'] = 1 := rfl
      have hsize : '\n'.utf8Size = 1 := rfl
      omega

/-- The line of a byte of a text. -/
def lineOf (text : String) (offset : Nat) : Nat :=
  lineBehind ((bytes text.toList).take offset)

/-- The column of a byte of a text. -/
def columnOf (text : String) (offset : Nat) : Nat :=
  columnBehind ((bytes text.toList).take offset)

theorem offsetAt?_eq_some_iff {text : String} {line column offset : Nat} :
    offsetAt? text line column = some offset ↔ line ≠ 0 ∧ offset < text.utf8ByteSize ∧
      byteLength ((linesWithEnds text.toList).take (line - 1)).flatten + (column - 1) = offset := by
  unfold offsetAt?
  dsimp only
  rw [byteLength_toList, Option.ite_none_left_eq_some, Option.ite_none_right_eq_some,
    Option.some.injEq]
  apply and_congr_right
  intro _
  constructor
  . rintro ⟨hinside, rfl⟩
    exact ⟨hinside, rfl⟩
  . rintro ⟨hinside, rfl⟩
    exact ⟨hinside, rfl⟩

theorem offsetAt?_eq (text : String) (offset : Nat) :
    offsetAt? text (lineOf text offset) (columnOf text offset) =
      if offset < text.utf8ByteSize then some offset else none := by
  have hplace := size_before (lines_linesWithEnds text.toList) offset
  rw [byteLength_toList] at hplace
  split
  . next hinside =>
    rw [Nat.min_eq_left (Nat.le_of_lt hinside)] at hplace
    exact offsetAt?_eq_some_iff.mpr ⟨Nat.succ_ne_zero _, hinside, hplace⟩
  . next houtside =>
    rw [Nat.min_eq_right (Nat.not_lt.mp houtside)] at hplace
    rw [Option.eq_none_iff_forall_ne_some]
    intro other hother
    obtain ⟨-, hinside, heq⟩ := offsetAt?_eq_some_iff.mp hother
    exact Nat.ne_of_lt hinside (heq.symm.trans hplace)

/-- The label of an error in a JSON text is at the byte whose line and column are reported: they are
turned back into the offset of the byte. Any other line and column come to nothing, or to a byte of
the text all the same. -/
theorem labels_at_reported_byte (text : String) :
    (∀ offset, offsetAt? text (lineOf text offset) (columnOf text offset) =
      if offset < text.utf8ByteSize then some offset else none) ∧
    (∀ remark offset,
      (Error.ofRemark text ⟨remark, lineOf text offset, columnOf text offset⟩).labels =
        if offset < text.utf8ByteSize then [⟨some remark, ⟨offset, 1⟩⟩] else []) ∧
    ∀ line column, offsetAt? text line column = none ∨
      ∃ offset < text.utf8ByteSize, offsetAt? text line column = some offset := by
  refine ⟨offsetAt?_eq text, ?_, ?_⟩
  . intro remark offset
    unfold Error.ofRemark
    rw [offsetAt?_eq]
    split <;> rfl
  . intro line column
    cases h : offsetAt? text line column with
    | none => exact .inl rfl
    | some offset => exact .inr ⟨offset, (offsetAt?_eq_some_iff.mp h).2.1, rfl⟩

example : offsetAt? "é\n\n→x" 3 4 = some 7 := by decide

end Facade.Input
