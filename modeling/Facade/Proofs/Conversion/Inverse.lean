import Facade.Proofs.Conversion.Meaning
import Facade.Proofs.Names
import Mathlib.Logic.Equiv.List

/-!
This module contains the proof that the two conversions of a type are inverse: there is a function of
values for each of them, which is what the expression means, and neither function loses anything.
-/

namespace Facade.Scala

open Host

namespace ScalaType

/-- The host type of the values that become values of a type. Only an optional type takes null. -/
@[reducible]
def hostType : ScalaType → ExprType
  | scalar s boxed => if boxed && s.isPrimitive then .boxed s else .scalar s
  | enumeration name _ => .hostConstant name
  | wrapper name _ => .hostObject name
  | external expression => .external expression
  | list element => .list .host element.hostType
  | set element => .set .host element.hostType
  | map key value => .map .host key.hostType value.hostType
  | option value => .nullable value.hostType

/-- The type of the values of a type. -/
@[reducible]
def exprType : ScalaType → ExprType
  | scalar s _ => .scalar s
  | enumeration name _ => .constant name
  | wrapper name _ => .wrapper name
  | external expression => .external expression
  | list element => .list .scala element.exprType
  | set element => .set .scala element.exprType
  | map key value => .map .scala key.exprType value.exprType
  | option value => .option value.exprType

end ScalaType

variable {w : World} {t u a b k v : ExprType}

theorem key_ne_value (depth : Nat) : s!"k{depth}" ≠ s!"v{depth}" := by
  intro heq
  have hstart := (String.append_left_inj _).mp heq
  exact absurd hstart (by decide)

/-- Whether a conversion of an expression comes to a function of its value. -/
def Converts (w : World) {a u : ExprType} (convert : Expression → Expression)
    (g : a.Carrier w → u.Carrier w) (x : Expression) : Prop :=
  ∀ (context : Context) (f : Env w context → a.Carrier w),
    x.meaning? w context = some ⟨a, f⟩ →
      (convert x).meaning? w context = some ⟨u, fun env => g (f env)⟩

section

variable {depth : Nat} {convert convertKey convertValue : Expression → Expression} {x : Expression}
variable {g : a.Carrier w → u.Carrier w} {gk : a.Carrier w → k.Carrier w}
variable {gv : b.Carrier w → v.Carrier w}

theorem Converts.eq_id {name : String} (h : Converts w convert g (.code name))
    (hsame : convert (.code name) = .code name) : (⟨u, g⟩ : Operation w a) = ⟨a, id⟩ := by
  -- the name stands for its own value, which the conversion gives back
  have hbody := h _ _ (meaning?_code name a [])
  rw [hsame, meaning?_code, Option.some.injEq, Sigma.mk.injEq] at hbody
  obtain ⟨rfl, hfirst⟩ := hbody
  congr 1
  funext value
  exact (congrFun (eq_of_heq hfirst) (value, ())).symm

theorem convertElements_cases (h : Converts w convert g (.code s!"e{depth}")) (x : Expression) :
    (x.convertElements depth convert = x ∧ (⟨u, g⟩ : Operation w a) = ⟨a, id⟩) ∨
      x.convertElements depth convert =
        x.traversal.mapElements s!"e{depth}" (convert (.code s!"e{depth}")) := by
  unfold Expression.convertElements
  dsimp only
  split
  . next hsame => exact .inl ⟨rfl, h.eq_id hsame⟩
  . exact .inr rfl

theorem convertEntries_cases (hkey : Converts w convertKey gk (.code s!"k{depth}"))
    (hvalue : Converts w convertValue gv (.code s!"v{depth}")) (x : Expression) :
    (x.convertEntries depth convertKey convertValue = x ∧
        (⟨k, gk⟩ : Operation w a) = ⟨a, id⟩ ∧ (⟨v, gv⟩ : Operation w b) = ⟨b, id⟩) ∨
      x.convertEntries depth convertKey convertValue =
        x.traversal.mapEntries s!"k{depth}" s!"v{depth}" (convertKey (.code s!"k{depth}"))
          (convertValue (.code s!"v{depth}")) := by
  unfold Expression.convertEntries
  dsimp only
  split
  . next hsame => exact .inl ⟨rfl, hkey.eq_id hsame.1, hvalue.eq_id hsame.2⟩
  . exact .inr rfl

/-- Whether an expression is not taken for a collection of the host. -/
def IsPlain (x : Expression) : Prop :=
  ".asScala".toList.isSuffixOf x.render.toList = false

theorem traversal_of_isPlain (h : IsPlain x) : x.traversal = x := by
  unfold Expression.traversal
  rw [h]
  rfl

theorem Converts.elements {elements : Elementwise w t}
    {g : elements.element.Carrier w → u.Carrier w} (h : Converts w convert g (.code s!"e{depth}"))
    (hplain : IsPlain x) (helements : elementwise? w t = some elements) :
    Converts w (fun x => x.convertElements depth convert) (elements.map u g) x := by
  intro context f hx
  dsimp only
  obtain ⟨hconvert, hid⟩ | hconvert := convertElements_cases h x
  . cases hid
    rw [hconvert]
    exact meaning?_of_eq_id hx (map_id_of_elementwise? helements)
  . rw [hconvert, traversal_of_isPlain hplain]
    exact meaning?_mapElements hx helements (h _ _ (meaning?_code _ _ context))

theorem Converts.entries {pairs : Entrywise w t} {gk : pairs.key.Carrier w → k.Carrier w}
    {gv : pairs.value.Carrier w → v.Carrier w}
    (hkey : Converts w convertKey gk (.code s!"k{depth}"))
    (hvalue : Converts w convertValue gv (.code s!"v{depth}")) (hplain : IsPlain x)
    (hpairs : entrywise? w t = some pairs) :
    Converts w (fun x => x.convertEntries depth convertKey convertValue)
      (pairs.map k v (Prod.map gk gv)) x := by
  intro context f hx
  dsimp only
  obtain ⟨hconvert, hk, hv⟩ | hconvert := convertEntries_cases hkey hvalue x
  . cases hk
    cases hv
    rw [hconvert, Prod.map_id]
    exact meaning?_of_eq_id hx (map_id_of_entrywise? hpairs)
  . rw [hconvert, traversal_of_isPlain hplain]
    -- the name of the value is looked up behind that of the key
    exact meaning?_mapEntries hx hpairs (hkey _ _ (meaning?_code _ _ _))
      (hvalue _ _ (meaning?_code_of_ne (key_ne_value depth) _ _ context))

theorem isPlain_call (function : String) (x : Expression) : IsPlain (.call function x) := by
  rw [IsPlain, ← Bool.not_eq_true, List.isSuffixOf_iff_suffix]
  rintro ⟨before, heq⟩
  -- the text of a call ends with a parenthesis
  have hlast := congrArg List.getLast? heq
  rw [Expression.render, String.toList_append, List.getLast?_append, List.getLast?_append] at hlast
  simp at hlast

theorem isPlain_code {text : String} (h : '.' ∉ text.toList) : IsPlain (.code text) := by
  rw [IsPlain, ← Bool.not_eq_true, List.isSuffixOf_iff_suffix]
  intro hsuffix
  exact h (hsuffix.subset (by decide))

theorem isPlain_numbered {start : String} (h : '.' ∉ start.toList) (depth : Nat) :
    IsPlain (.code (start ++ toString depth)) := by
  apply isPlain_code
  rw [String.toList_append, List.mem_append, not_or]
  refine ⟨h, ?_⟩
  intro hdot
  have hdigit := Text.isDigit_of_mem_toString hdot
  cases hdigit

theorem isPlain_element (depth : Nat) : IsPlain (.code s!"e{depth}") :=
  isPlain_numbered (by decide) depth

theorem isPlain_key (depth : Nat) : IsPlain (.code s!"k{depth}") :=
  isPlain_numbered (by decide) depth

theorem isPlain_value (depth : Nat) : IsPlain (.code s!"v{depth}") :=
  isPlain_numbered (by decide) depth

theorem traversal_asScala (x : Expression) :
    (x.select "asScala").traversal = (x.select "asScala").select "iterator" := by
  unfold Expression.traversal
  rw [if_pos]
  rw [List.isSuffixOf_iff_suffix]
  refine ⟨x.render.toList, ?_⟩
  rw [Expression.render, String.append_assoc, String.toList_append]
  rfl

theorem meaning?_viewElements {view iterator : ExprType} {elements : Elementwise w iterator}
    {i : view.Carrier w → iterator.Carrier w} {g : elements.element.Carrier w → u.Carrier w}
    {context : Context} {f : Env w context → view.Carrier w}
    (hview : (x.select "asScala").meaning? w context = some ⟨view, f⟩)
    (hiterator : member? w view "iterator" = some ⟨iterator, i⟩)
    (helements : elementwise? w iterator = some elements)
    (h : Converts w convert g (.code s!"e{depth}")) :
    (((x.select "asScala").convertElements depth convert).meaning? w context = some ⟨view, f⟩ ∧
        (⟨u, g⟩ : Operation w elements.element) = ⟨elements.element, id⟩) ∨
      ((x.select "asScala").convertElements depth convert).meaning? w context =
        some ⟨elements.result u, fun env => elements.map u g (i (f env))⟩ := by
  obtain ⟨hconvert, hid⟩ | hconvert := convertElements_cases h (x.select "asScala")
  . left
    rw [hconvert]
    exact ⟨hview, hid⟩
  . right
    rw [hconvert, traversal_asScala]
    have hx := meaning?_select "iterator" hview hiterator
    exact meaning?_mapElements hx helements (h _ _ (meaning?_code _ _ context))

theorem converts_list (h : Converts w convert g (.code s!"e{depth}")) (x : Expression) :
    Converts w (a := .list .host a) (u := .list .scala u)
      (fun x => ((x.select "asScala").convertElements depth convert).select "toList")
      (List.map g) x := by
  intro context f hx
  have hview := meaning?_select "asScala" hx rfl
  dsimp only
  obtain ⟨hsame, hid⟩ | hmap := meaning?_viewElements hview rfl rfl h
  . cases hid
    rw [meaning?_select "toList" hsame rfl]
    simp only [List.map_id]
    rfl
  . rw [meaning?_select "toList" hmap rfl]
    rfl

theorem converts_set (h : Converts w convert g (.code s!"e{depth}")) (x : Expression) :
    Converts w (a := .set .host a) (u := .set .scala u)
      (fun x => ((x.select "asScala").convertElements depth convert).select "toSet")
      (Finset.image g) x := by
  intro context f hx
  have hview := meaning?_select "asScala" hx rfl
  dsimp only
  obtain ⟨hsame, hid⟩ | hmap := meaning?_viewElements hview rfl rfl h
  . cases hid
    rw [meaning?_select "toSet" hsame rfl]
    simp only [Finset.image_id]
    rfl
  . -- the iterator may give equal elements, of which the set of it keeps one
    rw [meaning?_select "toSet" hmap rfl]
    rfl

theorem converts_map (hkey : Converts w convertKey gk (.code s!"k{depth}"))
    (hvalue : Converts w convertValue gv (.code s!"v{depth}")) (x : Expression) :
    Converts w (a := .map .host a b) (u := .map .scala k v)
      (fun x => .call "ListMap.from" <|
        (x.select "asScala").convertEntries depth convertKey convertValue)
      (Entries.map gk gv) x := by
  intro context f hx
  have hview := meaning?_select "asScala" hx rfl
  dsimp only
  obtain ⟨hconvert, hk, hv⟩ | hconvert := convertEntries_cases hkey hvalue (x.select "asScala")
  . cases hk
    cases hv
    rw [hconvert, meaning?_call "ListMap.from" hview rfl]
    simp only [Entries.map_id]
    rfl
  . rw [hconvert, traversal_asScala]
    have hiterator := meaning?_select "iterator" hview rfl
    have hmap := meaning?_mapEntries hiterator rfl (hkey _ _ (meaning?_code _ _ _))
      (hvalue _ _ (meaning?_code_of_ne (key_ne_value depth) _ _ context))
    rw [meaning?_call "ListMap.from" hmap rfl]
    rfl

end

namespace ScalaType

variable (w : World)

def scalarEquiv (s : Scalar) : (isBoxed : Bool) →
    ExprType.Carrier w (if isBoxed then .boxed s else .scalar s) ≃ w.scalar s
  | true => holderEquiv.symm
  | false => Equiv.refl _

def valueEquiv : (t : ScalaType) → t.hostType.Carrier w ≃ t.exprType.Carrier w
  | scalar s boxed => scalarEquiv w s (boxed && s.isPrimitive)
  | enumeration _ _ => holderEquiv
  | wrapper _ _ => holderEquiv
  | external _ => Equiv.refl _
  | list element => Equiv.listEquivOfEquiv element.valueEquiv
  | set element => imageEquiv element.valueEquiv
  | map key value => Entries.mapEquiv key.valueEquiv value.valueEquiv
  | option value => Equiv.optionCongr value.valueEquiv

variable {w}

theorem converts_unbox (s : Scalar) (isBoxed : Bool) (x : Expression) :
    Converts w (a := if isBoxed then .boxed s else .scalar s) (u := .scalar s)
      (fun x => if isBoxed then x.select (loweredName s ++ "Value") else x)
      (scalarEquiv w s isBoxed) x := by
  intro context f hx
  cases isBoxed with
  | true => exact meaning?_select _ hx (if_pos rfl)
  | false => exact hx

theorem converts_box (s : Scalar) (isBoxed : Bool) (x : Expression) :
    Converts w (a := .scalar s) (u := if isBoxed then .boxed s else .scalar s)
      (fun x => if isBoxed then .call (scalarName s ++ ".box") x else x)
      (scalarEquiv w s isBoxed).symm x := by
  intro context f hx
  cases isBoxed with
  | true => exact meaning?_call _ hx (if_pos rfl)
  | false => exact hx

theorem converts_fromHostAt : (t : ScalaType) → (depth : Nat) → (x : Expression) →
    Converts w (fromHostAt t depth) (t.valueEquiv w) x
  | scalar s boxed, _, x => converts_unbox s (boxed && s.isPrimitive) x
  | enumeration name _, _, x => fun context f hx => meaning?_call _ hx (if_pos rfl)
  | wrapper name _, _, x => fun context f hx => meaning?_create hx (if_pos rfl)
  | external _, _, x => fun context f hx => hx
  | list element, depth, x => by
    have helement := converts_fromHostAt element (depth + 1) (.code s!"e{depth}")
    exact converts_list helement x
  | set element, depth, x => by
    have helement := converts_fromHostAt element (depth + 1) (.code s!"e{depth}")
    exact converts_set helement x
  | map key value, depth, x => by
    have hkey := converts_fromHostAt key (depth + 1) (.code s!"k{depth}")
    have hvalue := converts_fromHostAt value (depth + 1) (.code s!"v{depth}")
    exact converts_map hkey hvalue x
  -- `Option(x)` is a plain expression, whatever `x` is
  | option value, depth, x => by
    have hvalue := converts_fromHostAt value (depth + 1) (.code s!"e{depth}")
    intro context f hx
    exact hvalue.elements (isPlain_call "Option" x) rfl _ _ (meaning?_call "Option" hx rfl)

-- The names inside are those of elements, keys and values, so that all expressions stay plain.
theorem converts_toHostAt : (t : ScalaType) → (depth : Nat) → (x : Expression) → IsPlain x →
    Converts w (toHostAt t depth) (t.valueEquiv w).symm x
  | scalar s boxed, _, x, _ => converts_box s (boxed && s.isPrimitive) x
  | enumeration name _, _, x, _ => fun context f hx => meaning?_select _ hx rfl
  | wrapper name _, _, x, _ => fun context f hx => meaning?_select _ hx rfl
  | external _, _, x, _ => fun context f hx => hx
  -- a value goes back through the same steps, with what its parameter stands for as the context
  | list element, depth, x, hplain => by
    have helement := converts_toHostAt element (depth + 1) _ (isPlain_element depth)
    intro context f hx
    have hmap := helement.elements hplain rfl context f hx
    have hview := meaning?_select "asJava" hmap rfl
    exact hview
  | set element, depth, x, hplain => by
    have helement := converts_toHostAt element (depth + 1) _ (isPlain_element depth)
    intro context f hx
    have hmap := helement.elements hplain rfl context f hx
    have hview := meaning?_select "asJava" hmap rfl
    exact hview
  | map key value, depth, x, hplain => by
    have hkey := converts_toHostAt key (depth + 1) _ (isPlain_key depth)
    have hvalue := converts_toHostAt value (depth + 1) _ (isPlain_value depth)
    intro context f hx
    have hmap := hkey.entries hvalue hplain rfl context f hx
    have hview := meaning?_select "asJava" hmap rfl
    exact hview
  | option value, depth, x, hplain => by
    have hvalue := converts_toHostAt value (depth + 1) _ (isPlain_element depth)
    intro context f hx
    have hmap := hvalue.elements hplain rfl context f hx
    have hnull := meaning?_select "orNull" hmap rfl
    exact hnull

theorem eval?_fromHost (t : ScalaType) (x : String) (value : t.hostType.Carrier w) :
    (fromHost t (.code x)).eval? w x ⟨t.hostType, value⟩ =
      some ⟨t.exprType, t.valueEquiv w value⟩ := by
  have hmeaning := converts_fromHostAt t 0 (.code x) _ _ (meaning?_code (w := w) x t.hostType [])
  rw [Expression.eval?, fromHost, hmeaning]
  rfl

theorem eval?_toHost (t : ScalaType) {y : String} (hy : IsPlain (.code y))
    (value : t.exprType.Carrier w) :
    (toHost t (.code y)).eval? w y ⟨t.exprType, value⟩ =
      some ⟨t.hostType, (t.valueEquiv w).symm value⟩ := by
  have hmeaning := converts_toHostAt t 0 (.code y) hy _ _ (meaning?_code (w := w) y t.exprType [])
  rw [Expression.eval?, toHost, hmeaning]
  rfl

end ScalaType

def writtenWorld : World where
  scalar _ := String
  external _ := String
  constant _ := String
  object _ := String
  scalarEq _ := inferInstance
  externalEq _ := inferInstance
  constantEq _ := inferInstance
  objectEq _ := inferInstance

def linesBySize : ScalaType :=
  .option (.map (.scalar .int true) (.list (.wrapper "Line" "p.Line")))

def someLines : linesBySize.hostType.Carrier writtenWorld :=
  some ⟨[(⟨"2"⟩, ["b", "a"]), (⟨"1"⟩, ["a"])], by decide⟩

end Facade.Scala
