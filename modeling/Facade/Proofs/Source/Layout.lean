import Facade.Proofs.Source.Lines

/-!
This module contains the proof that fragments are written line by line: each line of theirs is indented
by the blocks and groups around it, wherever the fragments are, and nothing else is left on the sheet.
-/

namespace Facade.Source

theorem Line.render_mk (level : Nat) (text : String) : Line.render ⟨level, text⟩ =
    (if text = "" then "" else String.ofList (List.replicate (2 * level) ' ') ++ text) ++ "\n" := by
  unfold render
  by_cases hempty : text = ""
  . rw [if_pos (String.isEmpty_iff.mpr hempty), if_pos hempty]
    rfl
  . rw [if_neg (by simpa [String.isEmpty_iff] using hempty), if_neg hempty]

namespace Fragment

mutual

theorem lines_add (n level : Nat) (f : Fragment) :
    f.lines (n + level) = (f.lines level).map fun l => ⟨n + l.level, l.text⟩ := by
  cases f with
  | line text => rfl
  | blank => rfl
  | block header body close =>
    rw [lines, lines, Nat.add_assoc, allLines_add n (level + 1) body, List.map_append, List.map_cons,
      List.map_map]
    rfl
  | indent body => rw [lines, lines, Nat.add_assoc, allLines_add n (level + 1) body]
  | doc texts =>
    rw [lines, lines, List.map_map]
    rfl

theorem allLines_add (n level : Nat) (fs : List Fragment) :
    allLines (n + level) fs = (allLines level fs).map fun l => ⟨n + l.level, l.text⟩ := by
  cases fs with
  | nil => rfl
  | cons f fs =>
    rw [allLines_cons, allLines_cons, lines_add n level f, allLines_add n level fs, List.map_append]

end

end Fragment

namespace Sheet

theorem emit_append (fs fs' : List Fragment) (sheet : Sheet) :
    sheet.emit (fs ++ fs') = (sheet.emit fs).emit fs' := by
  induction fs generalizing sheet with
  | nil => rfl
  | cons f fs ih => rw [List.cons_append, emit, emit, ih]

/-- The text of fragments on a sheet of their own. -/
def textAt (level : Nat) (fs : List Fragment) : String :=
  (emit fs ⟨level, ""⟩).text

/--
Fragments leave the level of a sheet as it was, and add their lines to its text: two spaces for each level
of the sheet and for each block and group around the line, unless the line is empty, and a line break.
So what fragments are written as together is what they are written as one after the other.
-/
theorem fragments_laid_out (fs fs' : List Fragment) (sheet : Sheet) :
    (sheet.emit fs).level = sheet.level ∧
    (sheet.emit fs).text = sheet.text ++ String.join ((Fragment.allLines 0 fs).map fun l =>
      (if l.text = "" then "" else
        String.ofList (List.replicate (2 * (sheet.level + l.level)) ' ') ++ l.text) ++ "\n") ∧
    sheet.emit (fs ++ fs') = (sheet.emit fs).emit fs' ∧
    textAt sheet.level (fs ++ fs') = textAt sheet.level fs ++ textAt sheet.level fs' := by
  refine ⟨?_, ?_, emit_append fs fs' sheet, ?_⟩
  . rw [emit_eq]
  . have hlines := Fragment.allLines_add sheet.level 0 fs
    rw [Nat.add_zero] at hlines
    rw [emit_eq, hlines, Line.renderAll, List.map_map]
    exact congrArg (fun lines => sheet.text ++ String.join lines)
      (List.map_congr_left fun l _ => Line.render_mk _ l.text)
  . simp only [textAt, emit_eq, String.empty_append, Fragment.allLines_append, Line.renderAll_append]

example : textAt 1 [.doc ["Generated."], .braced "final class A" [.line "def f: Int =",
    .indent [.line "1"], .blank, .braced "def g: Int =" [.line "2"]]] =
      "  /** Generated. */\n  final class A \x7b\n    def f: Int =\n      1\n\n" ++
        "    def g: Int = \x7b\n      2\n    \x7d\n  \x7d\n" := by
  rfl

end Sheet

end Facade.Source
