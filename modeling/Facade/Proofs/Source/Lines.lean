import Facade.Proofs.Names
import Facade.Scala.SourceFile
import Mathlib.Data.List.TakeWhile

/-!
This module contains the proofs about the lines of a source text: what fragments add to a sheet, and
that the lines of a text can be told apart again.
-/

namespace Facade.Source

open Text

namespace Line

theorem renderAll_nil : renderAll [] = "" := rfl

theorem renderAll_cons (l : Line) (lines : List Line) :
    renderAll (l :: lines) = l.render ++ renderAll lines := by
  rw [renderAll, List.map_cons, String.join_cons, renderAll]

theorem renderAll_append (lines lines' : List Line) :
    renderAll (lines ++ lines') = renderAll lines ++ renderAll lines' := by
  induction lines with
  | nil => rw [List.nil_append, renderAll_nil, String.empty_append]
  | cons l lines ih => rw [List.cons_append, renderAll_cons, renderAll_cons, ih, String.append_assoc]

theorem renderAll_singleton (l : Line) : renderAll [l] = l.render := by
  rw [renderAll_cons, renderAll_nil, String.append_empty]

end Line

namespace Fragment

theorem allLines_nil (level : Nat) : allLines level [] = [] := rfl

theorem allLines_cons (level : Nat) (f : Fragment) (fs : List Fragment) :
    allLines level (f :: fs) = f.lines level ++ allLines level fs := rfl

theorem lines_line (level : Nat) (text : String) : (line text).lines level = [⟨level, text⟩] := rfl

theorem allLines_append (level : Nat) (fs fs' : List Fragment) :
    allLines level (fs ++ fs') = allLines level fs ++ allLines level fs' := by
  induction fs with
  | nil => rfl
  | cons f fs ih => rw [List.cons_append, allLines_cons, allLines_cons, ih, List.append_assoc]

theorem allLines_map_line {α : Type} (level : Nat) (text : α → String) (items : List α) :
    allLines level (items.map fun item => line (text item)) =
      items.map fun item => ⟨level, text item⟩ := by
  induction items with
  | nil => rfl
  | cons item items ih =>
    rw [List.map_cons, allLines_cons, ih, lines_line, List.map_cons, List.singleton_append]

end Fragment

namespace Sheet

theorem line_eq (text : String) (sheet : Sheet) :
    sheet.line text = ⟨sheet.level, sheet.text ++ Line.renderAll [⟨sheet.level, text⟩]⟩ := by
  rw [line, Line.renderAll_singleton]

theorem doc_eq (texts : List String) (sheet : Sheet) :
    sheet.doc texts = ⟨sheet.level,
      sheet.text ++ Line.renderAll ((docLines texts).map (⟨sheet.level, ·⟩))⟩ := by
  unfold doc
  generalize docLines texts = lines
  induction lines generalizing sheet with
  | nil => rw [List.foldl_nil, List.map_nil, Line.renderAll_nil, String.append_empty]
  | cons text lines ih =>
    rw [List.foldl_cons, ih, line, List.map_cons, Line.renderAll_cons, String.append_assoc]

theorem close_eq (text : Option String) (sheet : Sheet) :
    sheet.close text = ⟨sheet.level,
      sheet.text ++ Line.renderAll (text.toList.map (⟨sheet.level, ·⟩))⟩ := by
  cases text with
  | none => rw [close, Option.toList_none, List.map_nil, Line.renderAll_nil, String.append_empty]
  | some text => rw [close, line_eq, Option.toList_some, List.map_singleton]

mutual

theorem emitOne_eq (f : Fragment) (sheet : Sheet) :
    sheet.emitOne f = ⟨sheet.level, sheet.text ++ Line.renderAll (f.lines sheet.level)⟩ := by
  cases f with
  | line text => rw [emitOne, line_eq, Fragment.lines]
  | blank => rw [emitOne, blank, line_eq, Fragment.lines]
  | block header body close =>
    rw [emitOne, emit_eq body, close_eq, line, Fragment.lines, Line.renderAll_append,
      Line.renderAll_cons]
    simp only [indent, dedent, Nat.add_sub_cancel, String.append_assoc]
  | indent body =>
    rw [emitOne, emit_eq body, Fragment.lines]
    simp only [indent, dedent, Nat.add_sub_cancel]
  | doc texts => rw [emitOne, doc_eq, Fragment.lines]

/-- Fragments add their lines to a sheet, whose level is the same afterwards. -/
theorem emit_eq (fs : List Fragment) (sheet : Sheet) :
    sheet.emit fs =
      ⟨sheet.level, sheet.text ++ Line.renderAll (Fragment.allLines sheet.level fs)⟩ := by
  cases fs with
  | nil => rw [emit, Fragment.allLines_nil, Line.renderAll_nil, String.append_empty]
  | cons f fs =>
    rw [emit, emitOne_eq f, emit_eq fs, Fragment.allLines_cons, Line.renderAll_append,
      String.append_assoc]

end

end Sheet

def codeLines (text : String) : List (List Char) :=
  (pieces (· == '\n') text.toList).map (·.dropWhile (· == ' '))

/-- Whether a line can be read back: it has no line break in it and starts with no space. -/
def Line.IsClean (l : Line) : Prop :=
  '\n' ∉ l.text.toList ∧ l.text.toList.head? ≠ some ' '

theorem Line.toList_render (l : Line) :
    ∃ indentation, l.render.toList = List.replicate indentation ' ' ++ l.text.toList ++ ['\n'] := by
  unfold render
  split
  . next hempty =>
    rw [String.isEmpty_iff.mp hempty]
    exact ⟨0, rfl⟩
  . exact ⟨2 * l.level, by simp⟩

theorem codeLines_renderAll {lines : List Line} (h : ∀ l ∈ lines, l.IsClean) :
    codeLines (Line.renderAll lines) = lines.map (·.text.toList) ++ [[]] := by
  induction lines with
  | nil => rfl
  | cons l lines ih =>
    rw [List.forall_mem_cons] at h
    obtain ⟨⟨hbreak, hspace⟩, hrest⟩ := h
    obtain ⟨indentation, hline⟩ := l.toList_render
    have hpiece : pieces (· == '\n') (List.replicate indentation ' ' ++ l.text.toList) =
        [List.replicate indentation ' ' ++ l.text.toList] := by
      apply pieces_of_not_mem
      intro hc
      obtain hc | hc := List.mem_append.mp hc
      . exact absurd (List.eq_of_mem_replicate hc) (by decide)
      . exact hbreak hc
    have hdrop : (List.replicate indentation ' ' ++ l.text.toList).dropWhile (· == ' ') =
        l.text.toList := by
      rw [List.dropWhile_append_of_pos (by simp), List.dropWhile_eq_self_iff]
      intro hlength hstart
      rw [beq_iff_eq] at hstart
      exact hspace (by rw [List.head?_eq_getElem?, List.getElem?_eq_getElem hlength, hstart])
    have htext : (Line.renderAll (l :: lines)).toList =
        (List.replicate indentation ' ' ++ l.text.toList) ++ '\n' :: (Line.renderAll lines).toList := by
      rw [Line.renderAll_cons, String.toList_append, hline, List.append_assoc, List.singleton_append]
    have hcode := ih hrest
    unfold codeLines at hcode ⊢
    rw [htext, pieces_append_cons (by decide), List.map_append, hcode, hpiece, List.map_singleton,
      hdrop, List.map_cons, List.cons_append]
    rfl

end Facade.Source

namespace Facade.Scala

open Source

theorem SourceFile.render_eq (file : SourceFile) :
    file.render = Line.renderAll (Fragment.allLines 0 file.fragments) := by
  rw [render, Sheet.emit_eq]
  exact String.empty_append

end Facade.Scala
