import Facade.Proofs.Source.Lines
import Facade.Scala.Definition

/-!
This module contains the proofs about what is written into a source text: the signature and the body of
a definition are there wherever the definition is, down to the text of the whole file.
-/

namespace Facade

namespace Text

theorem infix_intercalate {α : Type} {sep p : List α} {ps : List (List α)} (h : p ∈ ps) :
    p <:+: sep.intercalate ps := by
  induction ps with
  | nil => cases h
  | cons q ps ih =>
    cases ps with
    | nil => simp [List.mem_singleton.mp h]
    | cons q' ps =>
      rw [List.intercalate_cons_cons]
      obtain rfl | h := List.mem_cons.mp h
      . rw [List.append_assoc]
        exact (List.prefix_append _ _).isInfix
      . exact (ih h).trans (List.suffix_append _ _).isInfix

/-- Whether a text is a part of another one. -/
def Within (part whole : String) : Prop :=
  part.toList <:+: whole.toList

namespace Within

theorem rfl {text : String} : Within text text :=
  List.infix_rfl

theorem trans {part middle whole : String} (h : Within part middle) (h' : Within middle whole) :
    Within part whole :=
  List.IsInfix.trans h h'

theorem front {part text : String} (h : Within part text) (back : String) :
    Within part (text ++ back) := by
  apply h.trans
  rw [Within, String.toList_append]
  exact (List.prefix_append _ _).isInfix

theorem back {part text : String} (h : Within part text) (front : String) :
    Within part (front ++ text) := by
  apply h.trans
  rw [Within, String.toList_append]
  exact (List.suffix_append _ _).isInfix

theorem intercalate {text : String} {texts : List String} (h : text ∈ texts) (sep : String) :
    Within text (sep.intercalate texts) := by
  rw [Within, String.toList_intercalate]
  exact infix_intercalate (List.mem_map_of_mem h)

end Within

end Text

namespace Source

open Text

theorem Line.within_renderAll {lines : List Line} {l : Line} (h : l ∈ lines) :
    Within l.text (renderAll lines) := by
  induction lines with
  | nil => cases h
  | cons l' lines ih =>
    rw [renderAll_cons]
    obtain rfl | h := List.mem_cons.mp h
    . obtain ⟨indentation, hline⟩ := l.toList_render
      apply Within.front
      rw [Within, hline]
      exact List.infix_append _ _ _
    . exact (ih h).back _

/-- Whether a text is written on one of the lines of some fragments, at whatever level these are. -/
def Fragment.Writes (fragments : List Fragment) (text : String) : Prop :=
  ∀ level, ∃ l ∈ allLines level fragments, Within text l.text

namespace Fragment.Writes

variable {fragments body : List Fragment} {text : String}

theorem mono {part : String} (h : Writes fragments text) (hpart : Within part text) :
    Writes fragments part := by
  intro level
  obtain ⟨l, hl, htext⟩ := h level
  exact ⟨l, hl, hpart.trans htext⟩

theorem of_isInfix {all : List Fragment} (hall : fragments <:+: all) (h : Writes fragments text) :
    Writes all text := by
  obtain ⟨front, back, rfl⟩ := hall
  intro level
  obtain ⟨l, hl, htext⟩ := h level
  refine ⟨l, ?_, htext⟩
  rw [allLines_append, allLines_append]
  exact List.mem_append_left _ (List.mem_append_right _ hl)

theorem of_mem {f : Fragment} (hf : f ∈ fragments) (h : Writes [f] text) :
    Writes fragments text := by
  obtain ⟨front, back, rfl⟩ := List.append_of_mem hf
  exact of_isInfix ⟨front, back, by simp⟩ h

theorem ne_nil (h : Writes fragments text) : fragments ≠ [] := by
  rintro rfl
  obtain ⟨l, hl, -⟩ := h 0
  cases hl

theorem line (text : String) : Writes [.line text] text :=
  fun level => ⟨⟨level, text⟩, List.mem_cons_self, .rfl⟩

theorem header (header : String) (body : List Fragment) (close : Option String) :
    Writes [.block header body close] header :=
  fun level => ⟨⟨level, header⟩, List.mem_cons_self, .rfl⟩

theorem block (h : Writes body text) (header : String) (close : Option String) :
    Writes [.block header body close] text := by
  intro level
  obtain ⟨l, hl, htext⟩ := h (level + 1)
  refine ⟨l, ?_, htext⟩
  rw [allLines_cons, lines, List.cons_append, List.cons_append]
  exact List.mem_cons_of_mem _ (List.mem_append_left _ (List.mem_append_left _ hl))

theorem indent (h : Writes body text) : Writes [.indent body] text := by
  intro level
  obtain ⟨l, hl, htext⟩ := h (level + 1)
  refine ⟨l, ?_, htext⟩
  rw [allLines_cons, lines]
  exact List.mem_append_left _ hl

end Fragment.Writes

end Source

namespace Scala

open Text Source

namespace Def

theorem writes_code (d : Def) : Fragment.Writes d.code d.signature ∧
    ∀ text, Fragment.Writes d.body text → Fragment.Writes d.code text := by
  have houtside : Fragment.Writes [.line d.signature, .indent d.body] d.signature ∧
      ∀ text, Fragment.Writes d.body text →
        Fragment.Writes [.line d.signature, .indent d.body] text :=
    ⟨.of_mem List.mem_cons_self (.line _), fun text htext =>
      .of_mem (List.mem_cons_of_mem _ List.mem_cons_self) htext.indent⟩
  unfold code
  dsimp only
  split
  . next expression hbody =>
    split
    . refine ⟨(Fragment.Writes.line _).mono ((Within.rfl.front _).front _), fun text htext => ?_⟩
      rw [hbody] at htext
      obtain ⟨l, hl, htext⟩ := htext 0
      rw [List.mem_singleton.mp hl] at htext
      exact (Fragment.Writes.line _).mono (htext.back _)
    . exact houtside
  . next header body close hbody =>
    refine ⟨(Fragment.Writes.header _ _ _).mono ((Within.rfl.front _).front _), ?_⟩
    intro text htext level
    rw [hbody] at htext
    -- what is on the header of the block is on the first line, behind the signature
    obtain ⟨l, hl, htext⟩ := htext level
    rw [Fragment.allLines_cons, Fragment.lines, List.cons_append, List.cons_append] at hl ⊢
    obtain rfl | hl := List.mem_cons.mp hl
    . exact ⟨_, List.mem_cons_self, htext.back _⟩
    . exact ⟨l, List.mem_cons_of_mem _ hl, htext⟩
  . exact houtside

theorem writes_signature (d : Def) : Fragment.Writes d.fragments d.signature :=
  .of_isInfix (List.suffix_append _ _).isInfix d.writes_code.1

theorem writes_body {d : Def} {text : String} (h : Fragment.Writes d.body text) :
    Fragment.Writes d.fragments text :=
  .of_isInfix (List.suffix_append _ _).isInfix (d.writes_code.2 text h)

theorem within_params {d : Def} {params : List Param} (h : d.params = some params) :
    Within (paramList params) d.signature := by
  rw [signature, h]
  exact ((Within.rfl.back _).front _).front _

theorem within_returns {d : Def} {type : String} (h : d.returns = some type) :
    Within type d.signature := by
  rw [signature, h]
  exact ((Within.rfl.back _).back _).front _

end Def

theorem within_paramList {p : Param} {params : List Param} (h : p ∈ params) :
    Within p.type (paramList params) := by
  have hrender : Within p.type p.render := Within.rfl.back _
  exact ((hrender.trans (.intercalate (List.mem_map_of_mem h) _)).back _).front _

theorem writes_withMembers_header (header : String) (members : List (List Fragment)) :
    Fragment.Writes (withMembers header members) header := by
  unfold withMembers
  split
  . exact .line _
  . exact (Fragment.Writes.header _ _ _).mono (Within.rfl.front _)

theorem writes_withMembers {members : List (List Fragment)} {member : List Fragment}
    (hmember : member ∈ members) {text : String} (h : Fragment.Writes member text)
    (header : String) : Fragment.Writes (withMembers header members) text := by
  have hempty : member.isEmpty = false := by simpa using h.ne_nil
  have hmembers : members.all List.isEmpty = false := by
    rw [List.all_eq_false]
    exact ⟨member, hmember, by simpa using hempty⟩
  rw [withMembers, hmembers, if_neg Bool.false_ne_true]
  apply Fragment.Writes.block
  refine .of_isInfix (infix_intercalate (List.mem_filter.mpr ⟨hmember, ?_⟩)) h
  rw [hempty]
  rfl

namespace SourceFile

variable {file : SourceFile} {text : String}

theorem within_render (h : Fragment.Writes file.fragments text) : Within text file.render := by
  obtain ⟨l, hl, htext⟩ := h 0
  rw [render_eq]
  exact htext.trans (Line.within_renderAll hl)

theorem within_render_of_body {group : List Fragment} (hgroup : group ∈ file.body)
    (h : Fragment.Writes group text) : Within text file.render := by
  obtain ⟨front, back, hbody⟩ := List.append_of_mem hgroup
  have hgroups : group <:+: file.body.flatMap fun group => Fragment.blank :: group := by
    rw [hbody, List.flatMap_append, List.flatMap_cons]
    exact ⟨_ ++ [.blank], _, by simp; rfl⟩
  apply within_render
  exact .of_isInfix (hgroups.trans (List.suffix_append _ _).isInfix) h

theorem within_render_package (h : file.package.isEmpty = false) :
    Within (escapePath file.package) file.render := by
  apply within_render
  have hline : Fragment.Writes [.line ("package " ++ escapePath file.package)]
      (escapePath file.package) := (Fragment.Writes.line _).mono (Within.rfl.back _)
  refine .of_mem ?_ hline
  simp [fragments, h]

end SourceFile

end Scala

end Facade
