import Facade.Proofs.Outline.Names
import Facade.Proofs.Paths
import Facade.Scala.Wrapper

/-!
This module contains the proofs about the paths by which sources refer to packages, classes and
exceptions: which segments a path has once its reserved words are escaped, and which characters.
-/

namespace Facade

open Text Host Outcome

namespace Text

theorem pieces_intercalate {sep : Char} {ps : List (List Char)} (hne : ps ≠ [])
    (h : ∀ p ∈ ps, sep ∉ p) : pieces (· == sep) ([sep].intercalate ps) = ps := by
  induction ps with
  | nil => exact absurd rfl hne
  | cons p ps ih =>
    rw [List.forall_mem_cons] at h
    have hpiece := pieces_of_not_mem h.1
    cases ps with
    | nil => rw [List.intercalate_singleton, hpiece]
    | cons q ps =>
      have happend := @pieces_append_cons (· == sep) sep (beq_self_eq_true sep) p
      rw [List.intercalate_cons_cons, List.append_assoc, List.singleton_append, happend, hpiece,
        ih (List.cons_ne_nil _ _) h.2, List.singleton_append]

end Text

theorem Record.mem_identifier {text : List Char} (h : isIdentifier text = true) {c : Char}
    (hc : c ∈ text) : isWordChar c = true ∨ c = '_' ∨ c = '$' := by
  cases text with
  | nil => cases hc
  | cons d ds =>
    simp only [isIdentifier, Bool.and_eq_true, List.all_eq_true, Bool.or_eq_true, beq_iff_eq] at h
    obtain rfl | hc := List.mem_cons.mp hc
    . rw [isWordChar]
      grind
    . grind

theorem Record.not_mem_identifier {text : List Char} (h : isIdentifier text = true) {c : Char}
    (hc : ¬ (isWordChar c = true ∨ c = '_' ∨ c = '$')) : c ∉ text :=
  fun hmem => hc (mem_identifier h hmem)

namespace Scala

def segment (word : List Char) : List Char :=
  if isReserved (String.ofList word) then '`' :: word ++ ['`'] else word

theorem toList_escapePath (path : String) :
    (escapePath path).toList = ['.'].intercalate ((pieces (· == '.') path.toList).map segment) := by
  have hsegment : ∀ word : List Char, (if isReserved (String.ofList word) then
      escaped (String.ofList word) else String.ofList word).toList = segment word := by
    intro word
    unfold segment
    split
    . simp [escaped]
    . rw [String.toList_ofList]
  rw [escapePath, String.toList_intercalate, split, List.map_map, List.map_map]
  exact congrArg _ (List.map_congr_left fun word _ => hsegment word)

/-- Reserved words are escaped segment by segment. -/
theorem pieces_escapePath (path : String) :
    pieces (· == '.') (escapePath path).toList = (pieces (· == '.') path.toList).map segment := by
  rw [toList_escapePath, pieces_intercalate]
  . obtain ⟨p, ps, hps⟩ := exists_pieces (· == '.') path.toList
    rw [hps]
    exact List.cons_ne_nil _ _
  . rw [List.forall_mem_map]
    intro word hword hdot
    have hmem : '.' ∈ word := by
      unfold segment at hdot
      split at hdot
      . simpa using hdot
      . exact hdot
    have hsep := not_sep_of_mem_pieces hword hmem
    cases hsep

theorem escapePath_of_not_mem {path : String} (h : '.' ∉ path.toList) :
    (escapePath path).toList = segment path.toList := by
  rw [toList_escapePath, pieces_of_not_mem h, List.map_singleton, List.intercalate_singleton]

theorem mem_escapePath {path : String} {c : Char} (h : c ∈ (escapePath path).toList) :
    c ∈ path.toList ∨ c = '`' ∨ c = '.' := by
  by_cases hdot : c = '.'
  . exact .inr (.inr hdot)
  . obtain ⟨_, hpiece, hc⟩ := exists_mem_pieces '.' h hdot
    rw [pieces_escapePath] at hpiece
    obtain ⟨word, hword, rfl⟩ := List.mem_map.mp hpiece
    unfold segment at hc
    split at hc
    . rw [List.cons_append, List.mem_cons, List.mem_append, List.mem_singleton] at hc
      obtain hc | hc | hc := hc
      . exact .inr (.inl hc)
      . exact .inl (mem_of_mem_pieces hword hc)
      . exact .inr (.inl hc)
    . exact .inl (mem_of_mem_pieces hword hc)

theorem forall_mem_escapePath {P : Char → Prop} {path : String} (hdot : P '.') (htick : P '`')
    (h : ∀ c ∈ path.toList, P c) : ∀ c ∈ (escapePath path).toList, P c := by
  intro c hc
  obtain hc | rfl | rfl := mem_escapePath hc
  . exact h c hc
  . exact htick
  . exact hdot

theorem forall_mem_sourceNameOf {P : Char → Prop} {qualified : String} (hdot : P '.')
    (h : ∀ c ∈ qualified.toList, P c) : ∀ c ∈ (sourceNameOf qualified).toList, P c := by
  rw [sourceNameOf, replaceChar, String.toList_ofList, List.forall_mem_map]
  intro d hd
  split
  . exact hdot
  . exact h d hd


def isPathChar (c : Char) : Bool :=
  isWordChar c || c == '_' || c == '$' || c == '`' || c == '.'

def IsPathText (text : List Char) : Prop :=
  ∀ c ∈ text, isPathChar c = true

instance (text : List Char) : Decidable (IsPathText text) :=
  decidable_of_iff (text.all isPathChar = true) List.all_eq_true

theorem IsPathText.not_mem {text : List Char} (h : IsPathText text) {c : Char}
    (hc : isPathChar c = false) : c ∉ text := by
  intro hmem
  rw [h c hmem] at hc
  cases hc

theorem IsPathText.append {front back : List Char} (hfront : IsPathText front)
    (hback : IsPathText back) : IsPathText (front ++ back) :=
  List.forall_mem_append.mpr ⟨hfront, hback⟩

theorem isPathText_of_isIdentifier {word : List Char} (h : Record.isIdentifier word = true) :
    IsPathText word := by
  intro c hc
  unfold isPathChar
  obtain h | rfl | rfl := Record.mem_identifier h hc
  . rw [h, Bool.true_or, Bool.true_or, Bool.true_or, Bool.true_or]
  . decide
  . decide

theorem isPathText_of_isQualifiedName {name : String} (h : Record.isQualifiedName name = true) :
    IsPathText name.toList := by
  intro c hc
  by_cases hdot : c = '.'
  . rw [hdot]
    decide
  . obtain ⟨word, hword, hc⟩ := exists_mem_pieces '.' hc hdot
    exact isPathText_of_isIdentifier (List.all_eq_true.mp h word hword) c hc

theorem isPathText_escapePath {path : String} (h : IsPathText path.toList) :
    IsPathText (escapePath path).toList :=
  forall_mem_escapePath (by decide) (by decide) h

theorem isPathText_sourceNameOf {qualified : String} (h : IsPathText qualified.toList) :
    IsPathText (sourceNameOf qualified).toList :=
  forall_mem_sourceNameOf (by decide) h

theorem isPathText_hostReference {qualified : String} (h : IsPathText qualified.toList) :
    IsPathText (hostReference qualified).toList := by
  have hroot : IsPathText rootStart.toList := by decide
  rw [hostReference, String.toList_append]
  exact hroot.append (isPathText_escapePath (isPathText_sourceNameOf h))

theorem hostIdentifier_of_isIdentifier {name : String} (h : isIdentifier name = true) :
    Record.isIdentifier name.toList = true := by
  unfold isIdentifier at h
  split at h
  . cases h
  . next c cs hcons =>
    rw [Bool.and_eq_true] at h
    rw [hcons]
    exact h.1

theorem isPathText_of_safeName? {name safe : String} (h : safeName? name = some safe) :
    IsPathText safe.toList := by
  obtain ⟨hreserved, rfl⟩ | ⟨-, hidentifier, rfl⟩ := safeName?_cases h
  . have hwords : ∀ word ∈ reservedWords, IsPathText (escaped word).toList := by decide
    exact hwords name (by simpa [isReserved] using hreserved)
  . exact isPathText_of_isIdentifier (hostIdentifier_of_isIdentifier hidentifier)

end Scala

end Facade
