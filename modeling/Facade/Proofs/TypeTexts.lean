import Facade.Proofs.Alike.Types
import Facade.Proofs.Binding.Members
import Facade.Proofs.Signature.Blanks
import Facade.Proofs.Signature.Text
import Facade.Scala.ScalaType

/-!
This module contains the proofs about the texts of types that were read. Where no array has arguments,
the text is that of the signature with the packages that it leaves out, and it is read as the same type.
Where an array has arguments, nothing is read from the text.
-/

namespace Facade

open Text Host Outcome

namespace Host.HostType

mutual

/-- The signature that spells a type. -/
def signature : HostType → Signature
  | mk _ name arguments _ => .mk name (signatures arguments)

def signatures : List HostType → List Signature
  | [] => []
  | t :: ts => t.signature :: signatures ts

end

mutual

theorem text_signature : ∀ t : HostType, t.signature.text = t.render
  | mk _ name [] _ => rfl
  | mk _ name (t :: ts) _ => by
    rw [signature, signatures, Signature.text, text_signature t, moreText_signatures ts, render]

theorem moreText_signatures : ∀ ts : List HostType,
    Signature.moreText (signatures ts) = renderMore ts
  | [] => rfl
  | t :: ts => by
    rw [signatures, Signature.moreText, text_signature t, moreText_signatures ts, renderMore]

end

theorem signature_of_arguments_eq_nil {t : HostType} (h : t.arguments = []) :
    t.signature = .mk t.name [] := by
  cases t with
  | mk kind name arguments nullable =>
    cases h
    rfl

end Host.HostType

namespace Record

open Host.Signature

theorem elementName_arrayName {chars : List Char} (hchars : ∀ c ∈ chars, InName c) (count : Nat) :
    elementName (arrayName chars count) = String.ofList chars := by
  have hbrackets : ∀ rest, elementName.go ((List.replicate count [']', '[']).flatten ++ rest) =
      elementName.go rest := by
    intro rest
    induction count with
    | zero => rfl
    | succ count ih => exact ih
  have hreverse : ((List.replicate count ['[', ']']).flatten).reverse =
      (List.replicate count [']', '[']).flatten := by
    rw [List.reverse_flatten, List.map_replicate, List.reverse_replicate]
    rfl
  -- no name ends in a bracket, so nothing more is taken off
  have hname : elementName.go chars.reverse = chars.reverse := by
    unfold elementName.go
    split
    . next rest hreversed =>
      have hmem : ']' ∈ chars := by
        rw [← List.mem_reverse, hreversed]
        exact List.mem_cons_self
      exact absurd (hchars _ hmem) (not_inName (by decide))
    . rfl
  rw [elementName, toList_arrayName, List.reverse_append, hreverse, hbrackets, hname,
    List.reverse_reverse]

theorem fullName_arrayName {chars : List Char} (hchars : ∀ c ∈ chars, InName c) (count : Nat) :
    fullName (arrayName chars count) =
      arrayName
        (if String.ofList chars ∈ implicitClasses then "java.lang.".toList ++ chars else chars) count := by
  simp only [fullName, elementName_arrayName hchars, List.contains_iff_mem]
  split
  . rw [← String.toList_inj, String.toList_append, toList_arrayName, toList_arrayName, List.append_assoc]
  . rfl

theorem isTypeName_of_implicit {chars : List Char} (h : String.ofList chars ∈ implicitClasses) :
    IsTypeName ("java.lang.".toList ++ chars) ∧ (∀ c ∈ "java.lang.".toList ++ chars, InName c) ∧
      String.ofList ("java.lang.".toList ++ chars) ∉ implicitClasses := by
  have hall : ∀ name ∈ implicitClasses, isName ("java.lang.".toList ++ name.toList) = true ∧
      ("java.lang.".toList ++ name.toList).all isNameChar = true ∧
      String.ofList ("java.lang.".toList ++ name.toList) ∉ implicitClasses := by decide
  have hchars : (String.ofList chars).toList = chars := String.toList_ofList
  obtain ⟨hname, hin, hother⟩ := hall _ h
  rw [hchars] at hname hin hother
  exact ⟨isName_iff.mp hname, fun c hc => isNameChar_iff.mp (List.all_eq_true.mp hin c hc), hother⟩

theorem isArrayName_fullName {name : String} (h : IsArrayName name) :
    IsArrayName (fullName name) ∧ fullName (fullName name) = fullName name := by
  obtain ⟨chars, count, hchars, hname, rfl⟩ := h
  rw [fullName_arrayName hchars]
  split
  . next himplicit =>
    obtain ⟨hname', hchars', hother⟩ := isTypeName_of_implicit himplicit
    refine ⟨⟨_, count, hchars', hname', rfl⟩, ?_⟩
    rw [fullName_arrayName hchars', if_neg hother]
  . next hother =>
    refine ⟨⟨chars, count, hchars, hname, rfl⟩, ?_⟩
    rw [fullName_arrayName hchars, if_neg hother]

theorem eq_void_of_fullName {name : String} (h : fullName name = "void") : name = "void" := by
  unfold fullName at h
  split at h
  . rw [← String.toList_inj, String.toList_append] at h
    cases h
  . exact h

mutual

def completed : Signature → Signature
  | .mk name arguments => .mk (fullName name) (allCompleted arguments)

def allCompleted : List Signature → List Signature
  | [] => []
  | s :: ss => completed s :: allCompleted ss

end

mutual

/-- The text of a type is that of its signature, with the packages that it leaves out. -/
theorem signature_typeOf (enums : List String) : ∀ s : Signature,
    (typeOf enums s).signature = completed s
  | .mk name [] => by
    rw [typeOf, HostType.signature_of_arguments_eq_nil (arguments_simpleType enums _),
      name_simpleType, completed, allCompleted]
  | .mk name (a :: as) => by
    rw [typeOf, HostType.applied, HostType.signature, HostType.signatures, signature_typeOf enums a,
      signatures_typesOf enums as, completed, allCompleted]

theorem signatures_typesOf (enums : List String) : ∀ ss : List Signature,
    HostType.signatures (typesOf enums ss) = allCompleted ss
  | [] => rfl
  | s :: ss => by
    rw [typesOf, HostType.signatures, signature_typeOf enums s, signatures_typesOf enums ss,
      allCompleted]

end

mutual

theorem levels_completed : ∀ s : Signature, (completed s).levels = s.levels
  | .mk _ arguments => levelsAmong_allCompleted arguments

theorem levelsAmong_allCompleted : ∀ ss : List Signature,
    levelsAmong (allCompleted ss) = levelsAmong ss
  | [] => rfl
  | s :: ss => by
    rw [allCompleted, levelsAmong, levelsAmong, levels_completed s, levelsAmong_allCompleted ss]

end

mutual

theorem hasTypeNames_completed : ∀ s : Signature, s.HasTypeNames → (completed s).HasTypeNames
  | .mk _ arguments, h => ⟨(isArrayName_fullName h.1).1, allHaveTypeNames_allCompleted arguments h.2⟩

theorem allHaveTypeNames_allCompleted : ∀ ss : List Signature, AllHaveTypeNames ss →
    AllHaveTypeNames (allCompleted ss)
  | [], _ => trivial
  | s :: ss, h => ⟨hasTypeNames_completed s h.1, allHaveTypeNames_allCompleted ss h.2⟩

end

mutual

/-- The packages that a signature leaves out make no difference to its type. -/
theorem typeOf_completed (enums : List String) : ∀ s : Signature, s.HasTypeNames →
    typeOf enums (completed s) = typeOf enums s
  | .mk name [], h => by
    rw [completed, allCompleted, typeOf, typeOf, (isArrayName_fullName h.1).2]
  | .mk name (a :: as), h => by
    rw [completed, allCompleted, typeOf, typeOf, (isArrayName_fullName h.1).2,
      typeOf_completed enums a h.2.1, typesOf_allCompleted enums as h.2.2]

theorem typesOf_allCompleted (enums : List String) : ∀ ss : List Signature, AllHaveTypeNames ss →
    typesOf enums (allCompleted ss) = typesOf enums ss
  | [], _ => rfl
  | s :: ss, h => by
    rw [allCompleted, typesOf, typesOf, typeOf_completed enums s h.1,
      typesOf_allCompleted enums ss h.2]

end

variable {enums : List String}

theorem trimmed_eq_void_iff {source : String} :
    trimmed source = "void" ↔ parse source.toList = .ok (.mk "void" []) := by
  rw [parse_eq_void_iff, trimmed, ← String.toList_inj, String.toList_ofList]

theorem readType_eq_ok_iff_parse {member source : String} {type : HostType} :
    readType enums member source = .ok type ↔
      ∃ s, parse source.toList = .ok s ∧ parse source.toList ≠ .ok (.mk "void" []) ∧
        type = typeOf enums s := by
  unfold readType
  split
  . next hvoid => simp [trimmed_eq_void_iff.mp hvoid]
  . next hvoid =>
    rw [trimmed_eq_void_iff] at hvoid
    cases hparse : parse source.toList with
    | ok s =>
      rw [hparse] at hvoid
      simp [hvoid, eq_comm]
    | error error => simp

theorem eq_void_of_completed {s : Signature} (h : completed s = .mk "void" []) : s = .mk "void" [] := by
  cases s with
  | mk name arguments =>
    obtain ⟨hname, harguments⟩ := Signature.mk.inj h
    rw [eq_void_of_fullName hname]
    cases arguments with
    | nil => rfl
    | cons a as => cases harguments

/-- What was read as a type is read as the same type from its text, unless an array in it has arguments:
then nothing is read from the text. -/
theorem readType_render {member member' source : String} {type : HostType}
    (h : readType enums member source = .ok type) :
    (type.signature.holdsGenericArray = false →
      readType enums member' type.render = .ok type) ∧
    (type.signature.holdsGenericArray = true →
      ∃ error, readType enums member' type.render =
        .error (.flawed member' (.badType type.render error))) := by
  obtain ⟨s, hs, hvoid, rfl⟩ := readType_eq_ok_iff_parse.mp h
  have hnames : s.HasTypeNames := hasTypeNames_of_parse hs
  have htext : (typeOf enums s).render = (completed s).text := by
    rw [← HostType.text_signature, signature_typeOf]
  rw [signature_typeOf, htext]
  constructor
  . intro harrays
    have hlevels : (completed s).levels ≤ depthLimit := by
      rw [levels_completed]
      exact (parse_eq_ok_iff.mp hs).1
    have hparse := parse_text (hasTypeNames_completed s hnames) hlevels harrays
    refine readType_eq_ok_iff_parse.mpr ⟨_, hparse, ?_, (typeOf_completed enums s hnames).symm⟩
    rw [hparse]
    intro hagain
    rw [hs, eq_void_of_completed (Except.ok.inj hagain)] at hvoid
    exact hvoid rfl
  . intro harray
    have hnone := parse_text_ne_ok harray
    have hvoid : trimmed (completed s).text ≠ "void" := by
      rw [Ne, trimmed_eq_void_iff]
      exact hnone _
    rw [readType, if_neg hvoid]
    cases hparse : parse (completed s).text.toList with
    | ok s' => exact absurd hparse (hnone s')
    | error error => exact ⟨error, rfl⟩

def limitsText : String :=
  " java.util.Map<String,? extends Number []> "

def limitsType : HostType :=
  .applied "java.util.Map" [.plain .string, .object "java.lang.Number[]"]

theorem readType_render_limits :
    readType [] "p.Host.getLimits()" limitsText = .ok limitsType ∧
      limitsType.render = "java.util.Map<java.lang.String, java.lang.Number[]>" ∧
      readType [] "p.Host.<init>#0.limits" limitsType.render = .ok limitsType := by
  have hread : readType [] "p.Host.getLimits()" limitsText = .ok limitsType := rfl
  exact ⟨hread, rfl, (readType_render hread).1 rfl⟩

/-- An array of lists, as a record spells it. -/
def tagsText : String :=
  "java.util.List<java.lang.String>[]"

/-- What the array of lists is read as. -/
def tagsType : HostType :=
  .applied "java.util.List[]" [.plain .string]

/-- The arguments of the array move behind its brackets, in the message about it too, and the text that
comes of this is not read again. -/
theorem not_readType_render_tags :
    readType [] "p.Host.getTags()" tagsText = .ok tagsType ∧
      tagsType.render = "java.util.List[]<java.lang.String>" ∧
      Scala.typeForMember ⟨[], []⟩ "p.wrappers" "p.Host.getTags()" tagsType =
        .error (.unresolved "p.Host.getTags()" "java.util.List[]<java.lang.String>") ∧
      readType [] "p.Host.getTags()" tagsType.render ≠ .ok tagsType := by
  refine ⟨rfl, rfl, by decide, ?_⟩
  intro hagain
  cases hagain

end Record

end Facade
