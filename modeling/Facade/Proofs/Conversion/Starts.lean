import Facade.Proofs.References
import Facade.Scala.Expression
import Mathlib.Data.List.TakeWhile

/-!
This module contains the proofs about the names in scope that a text uses: the paths in it start with
them. An expression uses those that its parts use, those of the parameters in it, and two keywords.
-/

namespace Facade.Scala

open Text

section

variable {a member : List Char} {c : Char}

/-- What the paths in a text start with. What stands behind a dot is a member, and never in scope. -/
def pathStarts (text : List Char) : List (List Char) :=
  ((pieces (fun c => !isPathChar c) text).map (·.takeWhile (· != '.'))).filter (!·.isEmpty)

theorem pathStarts_append_mark (h : isPathChar c = false) (a b : List Char) :
    pathStarts (a ++ c :: b) = pathStarts a ++ pathStarts b := by
  have hsep : (!isPathChar c) = true := by rw [h]; rfl
  rw [pathStarts, @pieces_append_cons (fun c => !isPathChar c) c hsep, List.map_append,
    List.filter_append]
  rfl

theorem pathStarts_mark (h : isPathChar c = false) (b : List Char) :
    pathStarts (c :: b) = pathStarts b :=
  pathStarts_append_mark h [] b

theorem takeWhile_pieces_append_dot (h : IsPathText member) (a : List Char) :
    (pieces (fun c => !isPathChar c) (a ++ '.' :: member)).map (·.takeWhile (· != '.')) =
      (pieces (fun c => !isPathChar c) a).map (·.takeWhile (· != '.')) := by
  induction a with
  | nil =>
    have hmember : ∀ c ∈ '.' :: member, (!isPathChar c) = false := by
      rw [List.forall_mem_cons]
      exact ⟨by decide, fun c hc => by rw [h c hc]; rfl⟩
    rw [List.nil_append, pieces_of_not_sep hmember]
    rfl
  | cons b a ih =>
    rw [List.cons_append]
    cases hb : !isPathChar b with
    | true =>
      rw [@pieces_cons_of_sep (fun c => !isPathChar c) b hb,
        @pieces_cons_of_sep (fun c => !isPathChar c) b hb, List.map_cons, List.map_cons, ih]
    | false =>
      -- the character goes in front of the first piece, with or without the member
      obtain ⟨p, ps, hps⟩ := exists_pieces (fun c => !isPathChar c) a
      obtain ⟨q, qs, hqs⟩ := exists_pieces (fun c => !isPathChar c) (a ++ '.' :: member)
      rw [hps, hqs, List.map_cons, List.map_cons, List.cons_eq_cons] at ih
      rw [pieces_cons_of_not_sep hps hb, pieces_cons_of_not_sep hqs hb, List.map_cons,
        List.map_cons, List.takeWhile_cons, List.takeWhile_cons, ih.1, ih.2]

theorem pathStarts_append_dot (h : IsPathText member) (a : List Char) :
    pathStarts (a ++ '.' :: member) = pathStarts a := by
  rw [pathStarts, takeWhile_pieces_append_dot h, pathStarts]

theorem pathStarts_nil : pathStarts [] = [] := rfl

theorem pathStarts_of_isPathText (h : IsPathText a) (hdot : '.' ∉ a) (hne : a ≠ []) :
    pathStarts a = [a] := by
  have hpath : ∀ c ∈ a, (!isPathChar c) = false := fun c hc => by rw [h c hc]; rfl
  have hall : ∀ c ∈ a, (c != '.') = true := by
    intro c hc
    rw [bne_iff_ne]
    rintro rfl
    exact hdot hc
  rw [pathStarts, pieces_of_not_sep hpath, List.map_singleton, List.takeWhile_eq_self_iff.mpr hall]
  simpa using hne

end

namespace Expression

theorem pathStarts_select {member : String} (h : IsPathText member.toList) (value : Expression) :
    pathStarts (value.select member).render.toList = pathStarts value.render.toList := by
  have htext : (value.select member).render.toList =
      value.render.toList ++ '.' :: member.toList := by
    simp [render]
  rw [htext, pathStarts_append_dot h]

theorem pathStarts_call (function : String) (value : Expression) :
    pathStarts (call function value).render.toList =
      pathStarts function.toList ++ pathStarts value.render.toList := by
  have htext : (call function value).render.toList =
      function.toList ++ '(' :: (value.render.toList ++ ')' :: []) := by
    simp [render]
  rw [htext, pathStarts_append_mark (by decide), pathStarts_append_mark (by decide), pathStarts_nil,
    List.append_nil]

theorem pathStarts_create (className : String) (value : Expression) :
    pathStarts (create className value).render.toList =
      "new".toList :: (pathStarts className.toList ++ pathStarts value.render.toList) := by
  have htext : (create className value).render.toList =
      "new".toList ++ ' ' :: (className.toList ++ '(' :: (value.render.toList ++ ')' :: [])) := by
    simp [render]
  have hnew : pathStarts "new".toList = ["new".toList] := by decide
  rw [htext, pathStarts_append_mark (by decide), pathStarts_append_mark (by decide),
    pathStarts_append_mark (by decide), pathStarts_nil, List.append_nil, hnew, List.singleton_append]

theorem pathStarts_mapElements (collection : Expression) (element : String) (body : Expression) :
    pathStarts (collection.mapElements element body).render.toList =
      pathStarts collection.render.toList ++
        (pathStarts element.toList ++ pathStarts body.render.toList) := by
  have htext : (collection.mapElements element body).render.toList =
      (collection.render.toList ++ '.' :: "map".toList) ++ '(' :: (element.toList ++ ' ' :: '=' ::
        '>' :: ' ' :: (body.render.toList ++ ')' :: [])) := by
    simp [render]
  have hmap : IsPathText "map".toList := by decide
  rw [htext, pathStarts_append_mark (by decide), pathStarts_append_dot hmap,
    pathStarts_append_mark (by decide), pathStarts_mark (by decide), pathStarts_mark (by decide),
    pathStarts_mark (by decide), pathStarts_append_mark (by decide), pathStarts_nil,
    List.append_nil]

theorem pathStarts_mapEntries (entries : Expression) (key value : String)
    (keyBody valueBody : Expression) :
    pathStarts (entries.mapEntries key value keyBody valueBody).render.toList =
      pathStarts entries.render.toList ++ "case".toList :: (pathStarts key.toList ++
        (pathStarts value.toList ++ (pathStarts keyBody.render.toList ++
          pathStarts valueBody.render.toList))) := by
  have htext : (entries.mapEntries key value keyBody valueBody).render.toList =
      (entries.render.toList ++ '.' :: "map".toList) ++ ' ' :: '\x7b' :: ' ' :: ("case".toList ++
        ' ' :: '(' :: (key.toList ++ ',' :: ' ' :: (value.toList ++ ')' :: ' ' :: '=' :: '>' ::
          ' ' :: '(' :: (keyBody.render.toList ++ ',' :: ' ' :: (valueBody.render.toList ++
            ')' :: ' ' :: '\x7d' :: []))))) := by
    simp [render]
  have hmap : IsPathText "map".toList := by decide
  have hcase : pathStarts "case".toList = ["case".toList] := by decide
  have hmarks : [' ', '\x7b', '\x7d', '(', ')', ',', '=', '>'].all (!isPathChar ·) = true := by
    decide
  simp only [List.all_cons, Bool.and_eq_true, Bool.not_eq_true'] at hmarks
  obtain ⟨hblank, hopen, hclose, hleft, hright, hcomma, hequals, harrow, -⟩ := hmarks
  rw [htext]
  simp only [pathStarts_append_mark, pathStarts_mark, pathStarts_append_dot hmap, pathStarts_nil,
    hcase, hblank, hopen, hclose, hleft, hright, hcomma, hequals, harrow, List.append_nil,
    List.singleton_append]

end Expression

end Facade.Scala
