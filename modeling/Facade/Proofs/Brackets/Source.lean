import Facade.Proofs.Brackets.Nested
import Facade.Proofs.Source.Lines
import Facade.Scala.SourceFile

/-!
This module contains the proofs about brackets in source texts: fragments close the brackets that they
open, however they are indented, and so do the definitions that are written as fragments, on one line or
on several.
-/

namespace Facade

namespace Source

open Text

theorem Line.scan_render (l : Line) (awaited : List Char) :
    scan awaited l.render.toList = scan awaited l.text.toList := by
  obtain ⟨indentation, hline⟩ := l.toList_render
  have hspaces : Bare (String.ofList (List.replicate indentation ' ')) := by
    intro c hc
    rw [String.toList_ofList] at hc
    rw [(List.mem_replicate.mp hc).2]
    decide
  have hindentation := hspaces.nested.scan_eq awaited
  rw [String.toList_ofList] at hindentation
  rw [hline, scan_append, scan_append, hindentation, Option.bind_some]
  cases scan awaited l.text.toList <;> simp

theorem Line.nested_renderAll {lines : List Line} (h : ∀ l ∈ lines, Nested l.text) :
    Nested (renderAll lines) := by
  apply nested_join
  rw [List.forall_mem_map]
  intro l hl
  rw [Nested, l.scan_render]
  exact h l hl

namespace Fragment

/-- Whether fragments close the brackets that they open, at whatever level they are. -/
def Nests (fragments : List Fragment) : Prop :=
  ∀ level, Nested (Line.renderAll (allLines level fragments))

variable {fragments more body : List Fragment} {text header : String}

theorem nests_nil : Nests [] :=
  fun _ => nested_empty

theorem Nests.append (h : Nests fragments) (hmore : Nests more) : Nests (fragments ++ more) := by
  intro level
  rw [allLines_append, Line.renderAll_append]
  exact (h level).append (hmore level)

theorem nests_of_forall (h : ∀ f ∈ fragments, Nests [f]) : Nests fragments := by
  induction fragments with
  | nil => exact nests_nil
  | cons f fragments ih =>
    rw [List.forall_mem_cons] at h
    exact h.1.append (ih h.2)

theorem nests_flatMap {α : Type} {items : List α} {f : α → List Fragment}
    (h : ∀ item ∈ items, Nests (f item)) : Nests (items.flatMap f) := by
  induction items with
  | nil => exact nests_nil
  | cons item items ih =>
    rw [List.forall_mem_cons] at h
    rw [List.flatMap_cons]
    exact h.1.append (ih h.2)

theorem nests_intercalate (hmore : Nests more) {groups : List (List Fragment)}
    (h : ∀ group ∈ groups, Nests group) : Nests (more.intercalate groups) := by
  induction groups with
  | nil => exact nests_nil
  | cons group groups ih =>
    rw [List.forall_mem_cons] at h
    cases groups with
    | nil => simpa using h.1
    | cons next groups =>
      rw [List.intercalate_cons_cons]
      exact (h.1.append hmore).append (ih h.2)

theorem nests_line (h : Nested text) : Nests [line text] := by
  intro level
  apply Line.nested_renderAll
  rintro l hl
  rw [List.mem_singleton.mp hl]
  exact h

theorem nested_of_nests_line (h : Nests [line text]) : Nested text := by
  have hline := h 0
  rwa [allLines, lines, allLines, List.append_nil, Line.renderAll_singleton, Nested,
    Line.scan_render] at hline

theorem nests_blank : Nests [blank] :=
  nests_line nested_empty

theorem nests_braced (hheader : Nested header) (hbody : Nests body) : Nests [braced header body] := by
  intro level
  simp [Nested, allLines, lines, braced, Line.renderAll_cons, Line.renderAll_append,
    Line.renderAll_nil, Line.scan_render, hheader.scan_eq, (hbody (level + 1)).scan_eq]

theorem nests_block (hheader : Nested header) (hbody : Nests body) :
    Nests [block header body none] := by
  intro level
  simp [Nested, allLines, lines, Line.renderAll_cons, Line.scan_render, hheader.scan_eq,
    (hbody (level + 1)).scan_eq]

theorem Nests.prepend {close : Option String} (h : Nests [block header body close])
    (htext : Nested text) : Nests [block (text ++ header) body close] := by
  intro level
  have hblock := h level
  simp only [Nested, allLines, lines, List.append_nil, List.cons_append, Line.renderAll_cons,
    String.toList_append, scan_append, Line.scan_render] at hblock ⊢
  rw [htext.scan_eq, Option.bind_some]
  exact hblock

theorem nests_indent (hbody : Nests body) : Nests [indent body] := by
  intro level
  rw [allLines, lines, allLines, List.append_nil]
  exact hbody (level + 1)

theorem nests_doc {texts : List String} (h : ∀ text ∈ texts, Nested text) : Nests [doc texts] := by
  have hlines : ∀ line ∈ docLines texts, Nested line := by
    unfold docLines
    split
    . exact nofun
    . rw [List.forall_mem_singleton] at h ⊢
      simp [Nested, h.scan_eq]
    . simp only [List.forall_mem_append, List.forall_mem_cons, List.forall_mem_map]
      refine ⟨⟨by decide, fun text htext => ?_⟩, by decide, nofun⟩
      unfold docLine
      split
      . decide
      . simp [Nested, (h text htext).scan_eq]
  intro level
  rw [allLines, lines, allLines, List.append_nil]
  apply Line.nested_renderAll
  rw [List.forall_mem_map]
  exact hlines

end Fragment

end Source

namespace Scala

open Text Source

theorem nested_paramList {params : List Param} (h : ∀ p ∈ params, Nested p.render) :
    Nested (paramList params) :=
  (nested_intercalate (by decide) (List.forall_mem_map.mpr h)).parenthesized

theorem Param.nested_render {p : Param} (hname : Nested p.name) (htype : Nested p.type) :
    Nested p.render := by
  unfold render
  split <;> simp [Nested, hname.scan_eq, htype.scan_eq]

namespace Def

/-- Whether the parts of a method close the brackets that they open. -/
structure Nests (d : Def) : Prop where
  name : Nested d.name
  params : ∀ params ∈ d.params, ∀ p ∈ params, Nested p.render
  returns : ∀ type ∈ d.returns, Nested type
  body : Fragment.Nests d.body
  doc : ∀ text ∈ d.doc, Nested text

variable {d : Def}

theorem Nests.signature (h : d.Nests) : Nested d.signature := by
  have hdef : Nested "def " := by decide
  have hequals : Nested " =" := by decide
  unfold Def.signature
  refine Nested.append (Nested.append (Nested.append (Nested.append (Nested.append ?_ hdef) h.name)
    ?_) ?_) hequals
  . split <;> decide
  . split
    . next params heq => exact nested_paramList (h.params params heq)
    . exact nested_empty
  . split
    . next type heq => simp [Nested, (h.returns type heq).scan_eq]
    . exact nested_empty

theorem Nests.code (h : d.Nests) : Fragment.Nests d.code := by
  have hsignature := h.signature
  have hbody := h.body
  have houtside : Fragment.Nests [.line d.signature, .indent d.body] :=
    (Fragment.nests_line hsignature).append (Fragment.nests_indent hbody)
  have hspace : Nested (d.signature ++ " ") := hsignature.append (by decide)
  unfold Def.code
  dsimp only
  split
  . next expression heq =>
    rw [heq] at hbody
    split
    . exact Fragment.nests_line (hspace.append (Fragment.nested_of_nests_line hbody))
    . exact houtside
  . next heq =>
    rw [heq] at hbody
    exact hbody.prepend hspace
  . exact houtside

theorem Nests.fragments (h : d.Nests) : Fragment.Nests d.fragments := by
  refine Fragment.Nests.append ?_ h.code
  split
  . exact Fragment.nests_nil
  . exact Fragment.nests_doc h.doc

end Def

theorem nests_withMembers {header : String} {members : List (List Fragment)}
    (hheader : Nested header) (hmembers : ∀ member ∈ members, Fragment.Nests member) :
    Fragment.Nests (withMembers header members) := by
  unfold withMembers
  split
  . exact Fragment.nests_line hheader
  . refine Fragment.nests_braced hheader (Fragment.nests_intercalate Fragment.nests_blank ?_)
    exact fun group hgroup => hmembers group (List.mem_filter.mp hgroup).1

theorem ClassDef.nests_fragments {c : ClassDef} (hname : Nested c.name)
    (hmodifiers : ∀ modifier ∈ c.modifiers, Nested modifier)
    (hparams : ∀ p ∈ c.params, Nested p.render)
    (hmembers : ∀ member ∈ c.members, Fragment.Nests member) : Fragment.Nests c.fragments := by
  have hjoined : Nested (String.join (c.modifiers.map (· ++ " "))) := by
    apply nested_join
    rw [List.forall_mem_map]
    exact fun modifier hmodifier => (hmodifiers modifier hmodifier).append (by decide)
  have hclass : Nested "class " := by decide
  exact nests_withMembers (((hjoined.append hclass).append hname).append (nested_paramList hparams))
    hmembers

theorem ObjectDef.nests_fragments {o : ObjectDef} (hname : Nested o.name)
    (hparent : ∀ parent ∈ o.parent, Nested parent)
    (hmembers : ∀ member ∈ o.members, Fragment.Nests member) : Fragment.Nests o.fragments := by
  have hobject : Nested "object " := by decide
  refine nests_withMembers ?_ hmembers
  unfold header
  refine Nested.append (Nested.append (Nested.append ?_ hobject) hname) ?_
  . split <;> decide
  . split
    . next parent heq => simp [Nested, (hparent parent heq).scan_eq]
    . exact nested_empty

theorem Case.nests_fragment {c : Case} (hpattern : Nested c.pattern)
    (hbody : ∀ line ∈ c.body, Nested line) : Fragment.Nests [c.fragment] := by
  unfold fragment
  split
  . next single heq =>
    rw [heq, List.forall_mem_singleton] at hbody
    apply Fragment.nests_line
    simp [Nested, hpattern.scan_eq, hbody.scan_eq]
  . apply Fragment.nests_block
    . simp [Nested, hpattern.scan_eq]
    . apply Fragment.nests_of_forall
      rw [List.forall_mem_map]
      exact fun line hline => Fragment.nests_line (hbody line hline)

theorem nests_matchFragment {scrutinee : String} {cases : List Case} (hscrutinee : Nested scrutinee)
    (hcases : ∀ c ∈ cases, Fragment.Nests [c.fragment]) :
    Fragment.Nests [matchFragment scrutinee cases] := by
  apply Fragment.nests_braced
  . exact hscrutinee.append (by decide)
  . apply Fragment.nests_of_forall
    rw [List.forall_mem_map]
    exact hcases

theorem nests_tryFragments {expression : String} {exceptions : List String}
    (hexpression : Nested expression) (hexceptions : ∀ e ∈ exceptions, Nested e) :
    Fragment.Nests (tryFragments expression exceptions) := by
  have htry : Nested ("try Right(" ++ expression ++ ")") := by
    simp [Nested, hexpression.scan_eq]
  refine (Fragment.nests_line htry).append (Fragment.nests_braced (by decide) ?_)
  apply Fragment.nests_of_forall
  rw [List.forall_mem_map]
  intro e he
  apply Fragment.nests_line
  simp [Nested, (hexceptions e he).scan_eq]

namespace SourceFile

variable {file : SourceFile}

theorem nests_fragments (hpackage : Nested (escapePath file.package))
    (horigin : ∀ origin ∈ file.origin, Nested origin)
    (himports : ∀ entry ∈ file.imports, Nested (importLine entry.1 entry.2))
    (hbody : ∀ group ∈ file.body, Fragment.Nests group) : Fragment.Nests file.fragments := by
  unfold fragments
  refine Fragment.Nests.append (Fragment.Nests.append (Fragment.Nests.append (Fragment.Nests.append
    ?_ ?_) ?_) ?_) ?_
  . exact Fragment.nests_line (by decide)
  . apply Fragment.nests_of_forall
    rw [List.forall_mem_map]
    intro origin hmem
    apply Fragment.nests_line
    simp [Nested, (horigin origin (Option.mem_toList.mp hmem)).scan_eq]
  . split
    . exact Fragment.nests_nil
    . refine Fragment.nests_blank.append (Fragment.nests_line ?_)
      simp [Nested, hpackage.scan_eq]
  . split
    . exact Fragment.nests_nil
    . refine Fragment.nests_blank.append (Fragment.nests_of_forall ?_)
      rw [List.forall_mem_map]
      exact fun entry hentry => Fragment.nests_line (himports entry hentry)
  . exact Fragment.nests_flatMap fun group hgroup => Fragment.nests_blank.append (hbody group hgroup)

theorem nested_render (hpackage : Nested (escapePath file.package))
    (horigin : ∀ origin ∈ file.origin, Nested origin)
    (himports : ∀ entry ∈ file.imports, Nested (importLine entry.1 entry.2))
    (hbody : ∀ group ∈ file.body, Fragment.Nests group) : Nested file.render := by
  rw [render_eq]
  exact nests_fragments hpackage horigin himports hbody 0

end SourceFile

end Scala

end Facade
