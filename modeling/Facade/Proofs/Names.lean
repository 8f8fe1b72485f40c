import Facade.Host.Name
import Facade.Proofs.Case

/-!
This module contains the proofs about names and their parts: where a name is cut and put together
again, and that a name in Pascal case is its own Pascal case and has no new marks in it.
-/

namespace Facade

open Text

namespace Text

section

variable {sep : Char → Bool}

theorem pieces_nil : pieces sep [] = [[]] := rfl

theorem pieces_cons_of_sep {c : Char} (h : sep c = true) (cs : List Char) :
    pieces sep (c :: cs) = [] :: pieces sep cs :=
  if_pos h

theorem pieces_cons_of_not_sep {c : Char} {cs p : List Char} {ps : List (List Char)}
    (hcs : pieces sep cs = p :: ps) (h : sep c = false) : pieces sep (c :: cs) = (c :: p) :: ps := by
  refine (if_neg (ne_true_of_eq_false h)).trans ?_
  rw [hcs]

theorem pieces_cons_self (c : Char) (cs : List Char) :
    pieces (· == c) (c :: cs) = [] :: pieces (· == c) cs := by
  apply pieces_cons_of_sep
  exact beq_self_eq_true c

theorem exists_pieces (sep : Char → Bool) (cs : List Char) : ∃ p ps, pieces sep cs = p :: ps := by
  induction cs with
  | nil => exact ⟨_, _, pieces_nil⟩
  | cons c cs ih =>
    cases hc : sep c with
    | true => exact ⟨_, _, pieces_cons_of_sep hc cs⟩
    | false =>
      obtain ⟨p, ps, hps⟩ := ih
      exact ⟨_, _, pieces_cons_of_not_sep hps hc⟩

/-- A character in front of a text is a separator, or it is put in front of a piece. -/
theorem cases_of_mem_pieces_cons {c : Char} {cs piece : List Char}
    (h : piece ∈ pieces sep (c :: cs)) :
    piece = [] ∨ piece ∈ pieces sep cs ∨
      (sep c = false ∧ ∃ rest ∈ pieces sep cs, piece = c :: rest) := by
  cases hc : sep c with
  | true =>
    rw [pieces_cons_of_sep hc] at h
    obtain rfl | h := List.mem_cons.mp h
    . exact .inl rfl
    . exact .inr (.inl h)
  | false =>
    obtain ⟨p, ps, hps⟩ := exists_pieces sep cs
    rw [pieces_cons_of_not_sep hps hc] at h
    rw [hps]
    obtain rfl | h := List.mem_cons.mp h
    . exact .inr (.inr ⟨rfl, p, List.mem_cons_self, rfl⟩)
    . exact .inr (.inl (List.mem_cons_of_mem _ h))

theorem mem_of_mem_pieces {cs piece : List Char} (hpiece : piece ∈ pieces sep cs) {d : Char}
    (hd : d ∈ piece) : d ∈ cs := by
  induction cs generalizing piece with
  | nil =>
    rw [pieces_nil, List.mem_singleton] at hpiece
    rwa [hpiece] at hd
  | cons c cs ih =>
    obtain rfl | hpiece | ⟨-, rest, hrest, rfl⟩ := cases_of_mem_pieces_cons hpiece
    . cases hd
    . exact List.mem_cons_of_mem _ (ih hpiece hd)
    . obtain rfl | hd := List.mem_cons.mp hd
      . exact List.mem_cons_self
      . exact List.mem_cons_of_mem _ (ih hrest hd)

theorem not_sep_of_mem_pieces {cs piece : List Char} (hpiece : piece ∈ pieces sep cs) {d : Char}
    (hd : d ∈ piece) : sep d = false := by
  induction cs generalizing piece with
  | nil =>
    rw [pieces_nil, List.mem_singleton] at hpiece
    rw [hpiece] at hd
    cases hd
  | cons c cs ih =>
    obtain rfl | hpiece | ⟨hsep, rest, hrest, rfl⟩ := cases_of_mem_pieces_cons hpiece
    . cases hd
    . exact ih hpiece hd
    . obtain rfl | hd := List.mem_cons.mp hd
      . exact hsep
      . exact ih hrest hd

theorem pieces_of_not_sep {cs : List Char} (h : ∀ c ∈ cs, sep c = false) : pieces sep cs = [cs] := by
  induction cs with
  | nil => rfl
  | cons c cs ih =>
    have hrest := ih fun d hd => h d (List.mem_cons_of_mem _ hd)
    exact pieces_cons_of_not_sep hrest (h c List.mem_cons_self)

theorem pieces_of_not_mem {c : Char} {cs : List Char} (h : c ∉ cs) :
    pieces (· == c) cs = [cs] := by
  apply pieces_of_not_sep
  intro d hd
  apply beq_false_of_ne
  rintro rfl
  exact h hd

theorem pieces_append_cons {c : Char} (h : sep c = true) (cs ds : List Char) :
    pieces sep (cs ++ c :: ds) = pieces sep cs ++ pieces sep ds := by
  induction cs with
  | nil => rw [List.nil_append, pieces_cons_of_sep h, pieces_nil, List.singleton_append]
  | cons b cs ih =>
    rw [List.cons_append]
    cases hb : sep b with
    | true => rw [pieces_cons_of_sep hb, pieces_cons_of_sep hb, ih, List.cons_append]
    | false =>
      obtain ⟨p, ps, hps⟩ := exists_pieces sep cs
      rw [hps, List.cons_append] at ih
      rw [pieces_cons_of_not_sep ih hb, pieces_cons_of_not_sep hps hb, List.cons_append]

end

theorem isDigit_of_mem_toString {n : Nat} {c : Char} (h : c ∈ (toString n).toList) :
    c.isDigit = true := by
  rw [Nat.toString_eq_repr, Nat.toList_repr] at h
  exact Nat.isDigit_of_mem_toDigits (by decide) (by decide) h

theorem toString_injective {n m : Nat} (h : toString n = toString m) : n = m := by
  have hdigits := congrArg (fun text : String => Nat.ofDigitChars 10 text.toList 0) h
  simpa [Nat.toString_eq_ofList_toDigits] using hdigits

theorem intercalate_pieces (sep : Char) (cs : List Char) :
    [sep].intercalate (pieces (· == sep) cs) = cs := by
  induction cs with
  | nil => rfl
  | cons c cs ih =>
    obtain ⟨p, ps, hps⟩ := exists_pieces (· == sep) cs
    rw [hps] at ih
    by_cases hc : c = sep
    . rw [hc, pieces_cons_self, hps, List.intercalate_cons_cons, ih]
      rfl
    . rw [pieces_cons_of_not_sep hps (beq_false_of_ne hc)]
      cases ps with
      | nil => simpa using ih
      | cons q ps =>
        rw [List.intercalate_cons_cons] at ih ⊢
        rw [List.cons_append, List.cons_append, ih]

theorem eq_of_pieces_eq {sep : Char} {cs ds : List Char}
    (h : pieces (· == sep) cs = pieces (· == sep) ds) : cs = ds := by
  rw [← intercalate_pieces sep cs, h, intercalate_pieces]

theorem exists_mem_pieces (sep : Char) {c : Char} {cs : List Char} (h : c ∈ cs) (hne : c ≠ sep) :
    ∃ piece ∈ pieces (· == sep) cs, c ∈ piece := by
  have hmem : c ∈ [sep].intercalate (pieces (· == sep) cs) := by rwa [intercalate_pieces]
  generalize pieces (· == sep) cs = ps at hmem
  induction ps with
  | nil => cases hmem
  | cons p ps ih =>
    cases ps with
    | nil => exact ⟨p, List.mem_cons_self, by simpa using hmem⟩
    | cons q ps =>
      rw [List.intercalate_cons_cons, List.mem_append, List.mem_append, List.mem_singleton] at hmem
      obtain (hp | hsep) | hrest := hmem
      . exact ⟨p, List.mem_cons_self, hp⟩
      . exact absurd hsep hne
      . obtain ⟨piece, hpiece, hc⟩ := ih hrest
        exact ⟨piece, List.mem_cons_of_mem _ hpiece, hc⟩

theorem pieces_map_replace {old new : Char} {cs : List Char} (h : new ∉ cs) :
    pieces (· == new) (cs.map fun c => if c = old then new else c) = pieces (· == old) cs := by
  induction cs with
  | nil => rfl
  | cons c cs ih =>
    rw [List.mem_cons, not_or] at h
    have hrest := ih h.2
    rw [List.map_cons]
    by_cases hc : c = old
    . rw [if_pos hc, hc, pieces_cons_self, pieces_cons_self, hrest]
    . obtain ⟨p, ps, hps⟩ := exists_pieces (· == old) cs
      rw [hps] at hrest
      rw [if_neg hc, pieces_cons_of_not_sep hrest (beq_false_of_ne (Ne.symm h.1)),
        pieces_cons_of_not_sep hps (beq_false_of_ne hc)]

theorem cutLast?_eq_none {sep : Char} {cs : List Char} (h : cutLast? sep cs = none) : sep ∉ cs := by
  induction cs with
  | nil => simp
  | cons c cs ih =>
    unfold cutLast? at h
    split at h
    . cases h
    . next hrest =>
      split at h
      . cases h
      . next hne =>
        rw [List.mem_cons, not_or]
        exact ⟨fun heq => hne heq.symm, ih hrest⟩

theorem cutLast?_eq_some {sep : Char} {cs before behind : List Char}
    (h : cutLast? sep cs = some (before, behind)) :
    cs = before ++ sep :: behind ∧ sep ∉ behind := by
  induction cs generalizing before with
  | nil => cases h
  | cons c cs ih =>
    unfold cutLast? at h
    split at h
    . next before' behind' hrest =>
      cases h
      obtain ⟨heq, hbehind⟩ := ih hrest
      exact ⟨by rw [heq, List.cons_append], hbehind⟩
    . next hrest =>
      split at h
      . next heq =>
        cases h
        exact ⟨by rw [heq, List.nil_append], cutLast?_eq_none hrest⟩
      . cases h

theorem dropStart?_eq_some {start text rest : List Char} (h : dropStart? start text = some rest) :
    text = start ++ rest := by
  induction start generalizing text with
  | nil => exact Option.some.inj h
  | cons c cs ih =>
    cases text with
    | nil => cases h
    | cons d ds =>
      unfold dropStart? at h
      split at h
      . next heq => rw [heq, ih h, List.cons_append]
      . cases h

theorem cutLast?_of_not_mem {sep : Char} {cs : List Char} (h : sep ∉ cs) :
    cutLast? sep cs = none := by
  cases hcut : cutLast? sep cs with
  | none => rfl
  | some cut =>
    obtain ⟨heq, -⟩ := cutLast?_eq_some hcut
    rw [heq] at h
    simp at h

theorem dropStart?_cancel (front start text : List Char) :
    dropStart? (front ++ start) (front ++ text) = dropStart? start text := by
  induction front with
  | nil => rfl
  | cons c front ih => rw [List.cons_append, List.cons_append, dropStart?, if_pos rfl, ih]

theorem dropStart?_append (start rest : List Char) :
    dropStart? start (start ++ rest) = some rest := by
  have hcancel := dropStart?_cancel start [] rest
  rwa [List.append_nil] at hcancel

theorem dropStart?_of_head {c : Char} {start text : List Char} (h : text.head? ≠ some c) :
    dropStart? (c :: start) text = none := by
  cases text with
  | nil => rfl
  | cons d ds =>
    rw [dropStart?, if_neg]
    rintro rfl
    exact h rfl

theorem mem_intercalate {sep : List Char} {ps : List (List Char)} {c : Char}
    (h : c ∈ sep.intercalate ps) : c ∈ sep ∨ ∃ p ∈ ps, c ∈ p := by
  induction ps with
  | nil => cases h
  | cons p ps ih =>
    cases ps with
    | nil =>
      rw [List.intercalate_singleton] at h
      exact .inr ⟨p, List.mem_cons_self, h⟩
    | cons q ps =>
      rw [List.intercalate_cons_cons, List.mem_append, List.mem_append] at h
      obtain (hp | hsep) | hrest := h
      . exact .inr ⟨p, List.mem_cons_self, hp⟩
      . exact .inl hsep
      . obtain hsep | ⟨piece, hpiece, hc⟩ := ih hrest
        . exact .inl hsep
        . exact .inr ⟨piece, List.mem_cons_of_mem _ hpiece, hc⟩

theorem cutFirst?_append {sep : Char} {front : List Char} (h : sep ∉ front) (back : List Char) :
    cutFirst? sep (front ++ sep :: back) = some (front, back) := by
  induction front with
  | nil => rw [List.nil_append, cutFirst?, if_pos rfl]
  | cons c front ih =>
    rw [List.mem_cons, not_or] at h
    rw [List.cons_append, cutFirst?, if_neg (Ne.symm h.1), ih h.2, Option.map_some]

theorem cutLast?_append {sep : Char} {back : List Char} (h : sep ∉ back) (front : List Char) :
    cutLast? sep (front ++ sep :: back) = some (front, back) := by
  induction front with
  | nil => rw [List.nil_append, cutLast?, cutLast?_of_not_mem h, if_pos rfl]
  | cons c front ih => rw [List.cons_append, cutLast?, ih]

end Text

namespace Host

theorem not_mem_simpleNameOf {qualified : String} {c : Char} (h : c ∉ qualified.toList) :
    c ∉ (simpleNameOf qualified).toList := by
  unfold simpleNameOf
  split
  . next package name hcut =>
    rw [(cutLast?_eq_some hcut).1, List.mem_append, not_or] at h
    rw [String.toList_ofList]
    exact fun hmem => h.2 (List.mem_cons_of_mem _ hmem)
  . exact h

theorem dot_not_mem_simpleNameOf (qualified : String) : '.' ∉ (simpleNameOf qualified).toList := by
  unfold simpleNameOf
  split
  . next package name hcut =>
    rw [String.toList_ofList]
    exact (cutLast?_eq_some hcut).2
  . next hcut => exact cutLast?_eq_none hcut

section

variable {d : Char}

theorem mem_of_mem_capitalize {cs : List Char} (hkept : ∀ c, d ∈ upper c → d = c)
    (h : d ∈ capitalize cs) : d ∈ cs := by
  unfold capitalize at h
  split at h
  . exact h
  . obtain h | h := List.mem_append.mp h
    . exact List.mem_cons.mpr (.inl (hkept _ h))
    . exact List.mem_cons_of_mem _ h

/-- A character that is the upper case of no other one comes from the name itself. -/
theorem mem_of_mem_pascalCase_of_kept {name : String} (hkept : ∀ c, d ∈ upper c → d = c)
    (h : d ∈ (pascalCase name).toList) : d ∈ name.toList := by
  rw [pascalCase, String.toList_ofList, List.mem_flatMap] at h
  obtain ⟨piece, hpiece, h⟩ := h
  exact mem_of_mem_pieces hpiece (mem_of_mem_capitalize hkept h)

theorem mem_of_mem_pascalCase {name : String} (hmark : isMark d = true)
    (h : d ∈ (pascalCase name).toList) : d ∈ name.toList :=
  mem_of_mem_pascalCase_of_kept (fun _ hmem => eq_of_mem_upper hmark hmem) h

end

theorem capitalize_flatMap (ps : List (List Char)) :
    capitalize (ps.flatMap capitalize) = ps.flatMap capitalize := by
  induction ps with
  | nil => rfl
  | cons p ps ih =>
    rw [List.flatMap_cons]
    cases p with
    | nil => exact ih
    | cons c cs =>
      obtain ⟨d, ds, hupper, hsettled⟩ := upper_cases c
      rw [capitalize, hupper, List.cons_append, List.cons_append, capitalize, hsettled]
      rfl

theorem isMark_of_isWordBreak {c : Char} (h : isWordBreak c = true) : isMark c = true := by
  simp only [isWordBreak, Bool.or_eq_true, beq_iff_eq] at h
  obtain (rfl | rfl) | rfl := h <;> rfl

theorem isWordBreak_of_mem_pascalCase {name : String} {c : Char}
    (h : c ∈ (pascalCase name).toList) : isWordBreak c = false := by
  cases hbreak : isWordBreak c with
  | false => rfl
  | true =>
    rw [pascalCase, String.toList_ofList, List.mem_flatMap] at h
    obtain ⟨piece, hpiece, h⟩ := h
    have hmem := mem_of_mem_capitalize
      (fun _ hupper => eq_of_mem_upper (isMark_of_isWordBreak hbreak) hupper) h
    rw [← not_sep_of_mem_pieces hpiece hmem, hbreak]

theorem pascalCase_pascalCase (name : String) : pascalCase (pascalCase name) = pascalCase name := by
  have hpieces : pieces isWordBreak (pascalCase name).toList = [(pascalCase name).toList] :=
    pieces_of_not_sep fun c hc => isWordBreak_of_mem_pascalCase hc
  rw [pascalCase, hpieces, List.flatMap_singleton, pascalCase, String.toList_ofList,
    capitalize_flatMap]

theorem dot_not_mem_pascalCase {name : String} (h : '.' ∉ name.toList) :
    '.' ∉ (pascalCase name).toList :=
  fun hmem => h (mem_of_mem_pascalCase (by decide) hmem)

end Host

end Facade
