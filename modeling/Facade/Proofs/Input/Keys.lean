import Facade.Input.Span
import Facade.Proofs.Names
import Facade.Proofs.Text.Lines

/-!
This module contains the proofs about the places of keys: the span of a key covers the key as it is
written in the first line that gives it a value.
-/

namespace Facade.Input

open Text

/-- Whether a line gives a key a value: without the white space at its start, the line begins with the
key as it is or between quotes, and an equals sign follows, possibly behind white space. -/
structure Gives (key line written : List Char) : Prop where
  spelled : written = key ∨ written = '"' :: (key ++ ['"'])
  followed : ∃ gap value, (∀ c ∈ gap, isBlank c = true) ∧
    trimStart line = written ++ (gap ++ '=' :: value)

section

variable {key line written text : List Char}

theorem startsWithEquals_iff : startsWithEquals text = true ↔
    ∃ gap value, (∀ c ∈ gap, isBlank c = true) ∧ text = gap ++ '=' :: value := by
  unfold startsWithEquals
  constructor
  . intro h
    split at h
    . next value hvalue =>
      obtain ⟨gap, hgap, htext⟩ := exists_blanks text
      exact ⟨gap, value, hgap, by rw [← hvalue]; exact htext⟩
    . cases h
  . rintro ⟨gap, value, hgap, rfl⟩
    rw [trimStart_append hgap, trimStart_cons_of_not_blank (by decide)]
    rfl

theorem assigns_iff : assigns written text = true ↔
    ∃ gap value, (∀ c ∈ gap, isBlank c = true) ∧ text = written ++ (gap ++ '=' :: value) := by
  rw [assigns, Option.any_eq_true]
  constructor
  . rintro ⟨rest, hrest, hequals⟩
    obtain ⟨gap, value, hgap, rfl⟩ := startsWithEquals_iff.mp hequals
    exact ⟨gap, value, hgap, dropStart?_eq_some hrest⟩
  . rintro ⟨gap, value, hgap, rfl⟩
    exact ⟨_, dropStart?_append _ _, startsWithEquals_iff.mpr ⟨gap, value, hgap, rfl⟩⟩

theorem gives_iff : Gives key line written ↔
    written ∈ spellings key ∧ assigns written (trimStart line) = true := by
  rw [assigns_iff, spellings, List.mem_pair]
  exact ⟨fun h => ⟨h.spelled, h.followed⟩, fun h => ⟨h.1, h.2⟩⟩

theorem head?_of_append_eq {c : Char} {rest rest' : List Char}
    (h : text ++ rest = c :: (text ++ rest')) : rest.head? = some c := by
  induction text with
  | nil =>
    rw [List.nil_append] at h
    rw [h, List.head?_cons]
  | cons d text ih =>
    rw [List.cons_append, List.cons_append, List.cons.injEq] at h
    rw [h.1] at h
    exact ih h.2

/-- No line has a key both as it is and between quotes. -/
theorem not_gives_quoted (h : Gives key line key) : ¬ Gives key line ('"' :: (key ++ ['"'])) := by
  intro h'
  obtain ⟨gap, value, hgap, hline⟩ := h.followed
  obtain ⟨gap', value', -, hline'⟩ := h'.followed
  rw [hline, List.cons_append, List.append_assoc] at hline'
  have hhead := head?_of_append_eq hline'
  cases gap with
  | nil => cases hhead
  | cons c gap =>
    have hblank := hgap c List.mem_cons_self
    rw [List.cons_append, List.head?_cons, Option.some.injEq] at hhead
    rw [hhead] at hblank
    cases hblank

theorem find?_spellings_eq_some_iff :
    (spellings key).find? (assigns · (trimStart line)) = some written ↔ Gives key line written := by
  constructor
  . intro h
    exact gives_iff.mpr ⟨List.mem_of_find?_eq_some h, (List.find?_eq_some_iff_append.mp h).1⟩
  . intro h
    obtain ⟨-, hassigns⟩ := gives_iff.mp h
    simp only [spellings, List.find?_cons]
    cases hkey : assigns key (trimStart line) with
    | true =>
      have hgives : Gives key line key := gives_iff.mpr ⟨List.mem_cons_self, hkey⟩
      obtain rfl | rfl := h.spelled
      . rfl
      . exact absurd h (not_gives_quoted hgives)
    | false =>
      obtain rfl | rfl := h.spelled
      . rw [hkey] at hassigns
        cases hassigns
      . rw [List.cons_append, hassigns]

/-- Whether a line is the first of some lines that gives a key a value, and comes behind the lines
`before`. -/
inductive GivesFirst (key : List Char) :
    (lines before : List (List Char)) → (line written : List Char) → Prop where
  | here {line written : List Char} {lines : List (List Char)} : Gives key line written →
    GivesFirst key (line :: lines) [] line written
  | later {other line written : List Char} {lines before : List (List Char)} :
    (∀ written, ¬ Gives key other written) → GivesFirst key lines before line written →
      GivesFirst key (other :: lines) (other :: before) line written

theorem GivesFirst.exists_eq_append {lines before : List (List Char)}
    (h : GivesFirst key lines before line written) :
    Gives key line written ∧ ∃ after, lines = before ++ line :: after := by
  induction h with
  | here hgives => exact ⟨hgives, _, rfl⟩
  | later _ _ ih =>
    obtain ⟨hgives, after, rfl⟩ := ih
    exact ⟨hgives, after, rfl⟩

theorem exists_givesFirst {lines : List (List Char)} (hline : line ∈ lines)
    (hgives : Gives key line written) :
    ∃ before line written, GivesFirst key lines before line written := by
  induction lines with
  | nil => cases hline
  | cons other lines ih =>
    by_cases h : ∃ written, Gives key other written
    . obtain ⟨written, h⟩ := h
      exact ⟨_, _, _, .here h⟩
    . obtain rfl | hline := List.mem_cons.mp hline
      . exact absurd ⟨_, hgives⟩ h
      . obtain ⟨before, line', written', hfirst⟩ := ih hline
        exact ⟨_, _, _, .later (not_exists.mp h) hfirst⟩

theorem keySpanIn_eq_some_iff {start : Nat} {lines : List (List Char)} {span : Span} :
    keySpanIn key start lines = some span ↔ ∃ before line written,
      GivesFirst key lines before line written ∧
        span = ⟨start + byteLength before.flatten + byteLength (indent line), byteLength written⟩ := by
  induction lines generalizing start with
  | nil =>
    constructor
    . rintro ⟨⟩
    . rintro ⟨_, _, _, ⟨⟩, _⟩
  | cons line lines ih =>
    unfold keySpanIn
    dsimp only
    split
    -- this line gives the key a value, so it is the first one that does
    . next written hwritten =>
      have hgives := find?_spellings_eq_some_iff.mp hwritten
      have hindent : byteLength line - byteLength (trimStart line) = byteLength (indent line) := by
        rw [← congrArg byteLength (indent_append_trimStart line), byteLength_append,
          Nat.add_sub_cancel]
      rw [hindent, Option.some.injEq, eq_comm]
      constructor
      . intro hspan
        exact ⟨[], line, written, .here hgives, hspan⟩
      . rintro ⟨before, line', written', hfirst, rfl⟩
        cases hfirst with
        | here hgives' =>
          have heq := hwritten.symm.trans (find?_spellings_eq_some_iff.mpr hgives')
          cases heq
          rfl
        | later hnone _ => exact absurd hgives (hnone written)
    -- the line that does is behind this one, and its bytes count
    . next hnone =>
      have hnot : ∀ written, ¬ Gives key line written := by
        intro written hgives
        rw [find?_spellings_eq_some_iff.mpr hgives] at hnone
        cases hnone
      rw [ih]
      constructor
      . rintro ⟨before, line', written, hfirst, rfl⟩
        refine ⟨line :: before, line', written, .later hnot hfirst, ?_⟩
        rw [List.flatten_cons, byteLength_append, ← Nat.add_assoc]
      . rintro ⟨before, line', written, hfirst, rfl⟩
        cases hfirst with
        | here hgives => exact absurd hgives (hnot written)
        | @later _ _ _ _ before _ hfirst =>
          refine ⟨before, line', written, hfirst, ?_⟩
          rw [List.flatten_cons, byteLength_append, ← Nat.add_assoc]

end

/-- Whether a span of a text covers what is written in a line, behind the white space at its start. The
lines before it are `before`. -/
structure Span.Covers (span : Span) (text : String) (before : List (List Char))
    (line written : List Char) : Prop where
  offset : span.offset = byteLength before.flatten + byteLength (indent line)
  length : span.length = byteLength written
  inLine : span.offset + span.length ≤ byteLength before.flatten + byteLength line
  inText : span.offset + span.length ≤ text.utf8ByteSize
  content : ((bytes text.toList).drop span.offset).take span.length = bytes written

theorem drop_take_bytes (before text after : List Char) :
    ((bytes (before ++ text ++ after)).drop (byteLength before)).take (byteLength text) =
      bytes text := by
  rw [← length_bytes, ← length_bytes, List.append_assoc, bytes_append, bytes_append, List.drop_left,
    List.take_left]

theorem covers_of_givesFirst {text : String} {key line written : List Char}
    {lines before : List (List Char)} (hlines : Lines text.toList lines)
    (hfirst : GivesFirst key lines before line written) :
    Span.Covers ⟨byteLength before.flatten + byteLength (indent line), byteLength written⟩ text before
      line written := by
  obtain ⟨hgives, after, hsplit⟩ := hfirst.exists_eq_append
  obtain ⟨gap, value, -, hline⟩ := hgives.followed
  have hwhole : line = indent line ++ (written ++ (gap ++ '=' :: value)) := by
    rw [← hline, indent_append_trimStart]
  have hin : byteLength (indent line) + byteLength written ≤ byteLength line := by
    rw [congrArg byteLength hwhole, byteLength_append, byteLength_append, ← Nat.add_assoc]
    exact Nat.le_add_right _ _
  have htext : text.toList =
      (before.flatten ++ indent line) ++ written ++ (gap ++ '=' :: value ++ after.flatten) := by
    rw [← hlines.flatten, hsplit, List.flatten_append, List.flatten_cons]
    nth_rewrite 1 [hwhole]
    simp only [List.append_assoc]
  refine ⟨rfl, rfl, by dsimp only; omega, ?_, ?_⟩
  . rw [← byteLength_toList, htext]
    simp only [byteLength_append]
    omega
  . rw [htext, ← byteLength_append]
    exact drop_take_bytes _ _ _

/-- There is a span of a key just if some line of the text gives the key a value. It is then inside the
text, in the first such line, and covers the key as that line has it. -/
theorem span_covers_key (text key : String) :
    ∃ lines, Lines text.toList lines ∧
      ((keySpan? text key).isSome ↔ ∃ line ∈ lines, ∃ written, Gives key.toList line written) ∧
      ∀ span, keySpan? text key = some span ↔ ∃ before line written,
        GivesFirst key.toList lines before line written ∧ span.Covers text before line written := by
  have hlines := lines_linesWithEnds text.toList
  refine ⟨_, hlines, ?_, fun span => ?_⟩
  . rw [Option.isSome_iff_exists]
    constructor
    . rintro ⟨span, hspan⟩
      obtain ⟨before, line, written, hfirst, -⟩ := keySpanIn_eq_some_iff.mp hspan
      obtain ⟨hgives, after, hsplit⟩ := hfirst.exists_eq_append
      exact ⟨line, by rw [hsplit]; exact List.mem_append_right _ List.mem_cons_self, written, hgives⟩
    . rintro ⟨line, hline, written, hgives⟩
      obtain ⟨before, line', written', hfirst⟩ := exists_givesFirst hline hgives
      exact ⟨_, keySpanIn_eq_some_iff.mpr ⟨before, line', written', hfirst, rfl⟩⟩
  . rw [keySpan?, keySpanIn_eq_some_iff]
    refine exists_congr fun before => exists_congr fun line => exists_congr fun written =>
      and_congr_right fun hfirst => ?_
    have hcovers := covers_of_givesFirst hlines hfirst
    rw [Nat.zero_add]
    constructor
    . rintro rfl
      exact hcovers
    . intro h
      obtain ⟨offset, length⟩ := span
      obtain rfl : offset = _ := h.offset
      obtain rfl : length = _ := h.length
      rfl

example : keySpan? "# é\r\n\t\"ns\" = 1" "ns" = some ⟨7, 4⟩ := by decide

end Facade.Input
