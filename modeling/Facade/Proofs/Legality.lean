import Facade.Proofs.Outline.Written
import Facade.Proofs.Outlines
import Facade.Proofs.References

/-!
This module contains the proofs about when the paths in the source of a wrapper are legal: which names of
classes, packages and exceptions make a path with a segment that is no name.
-/

namespace Facade

open Text Host Outcome

namespace Text

theorem pieces_map_both {old new : Char} (cs : List Char) :
    pieces (· == new) (cs.map fun c => if c = old then new else c) =
      pieces (fun c => c == new || c == old) cs := by
  induction cs with
  | nil => rfl
  | cons c cs ih =>
    obtain ⟨p, ps, hps⟩ := exists_pieces (fun c => c == new || c == old) cs
    have hnew := @pieces_cons_of_sep (· == new) new (beq_self_eq_true new)
    rw [List.map_cons]
    by_cases hc : c = old ∨ c = new
    . have hsep : (if c = old then new else c) = new := by grind
      rw [hsep, hnew, ih, pieces_cons_of_sep (by grind)]
    . rw [not_or] at hc
      rw [hps] at ih
      rw [if_neg hc.1, pieces_cons_of_not_sep ih (by grind), pieces_cons_of_not_sep hps (by grind)]

theorem isLetter_of_isAlpha {c : Char} (h : c.isAlpha = true) : isLetter c = true := by
  have hletters : letters = (65, 90) :: (97, 122) :: letters.drop 2 := rfl
  have hchecked : (decide (65 ≤ c.val ∧ c.val ≤ 90) ||
      decide (97 ≤ c.val) && decide (c.val ≤ 122)) = true := h
  simp only [Bool.or_eq_true, Bool.and_eq_true, decide_eq_true_eq,
    UInt32.le_iff_toNat_le] at hchecked
  have hrange : (65 ≤ c.toNat ∧ c.toNat ≤ 90) ∨ (97 ≤ c.toNat ∧ c.toNat ≤ 122) := hchecked
  rw [isLetter, Ranges.contains, hletters, Ranges.covers, Ranges.covers]
  split_ifs <;> first | rfl | omega

theorem isWordChar_of_isAlphanum {c : Char} (h : c.isAlphanum = true) : isWordChar c = true := by
  rw [Char.isAlphanum, Bool.or_eq_true] at h
  rw [isWordChar, Bool.or_eq_true]
  obtain h | h := h
  . exact .inl (isLetter_of_isAlpha h)
  . right
    have hnumbers : numbers = (48, 57) :: numbers.drop 1 := rfl
    simp only [Char.isDigit, Bool.and_eq_true, decide_eq_true_eq, ge_iff_le,
      UInt32.le_iff_toNat_le] at h
    have hrange : 48 ≤ c.toNat ∧ c.toNat ≤ 57 := h
    rw [isNumber, Ranges.contains, hnumbers, Ranges.covers]
    split_ifs <;> first | rfl | omega

end Text

theorem Settings.isIdentifier_of_segmentProblem? {segment : List Char}
    (h : segmentProblem? segment = none) : Record.isIdentifier segment = true := by
  cases segment with
  | nil => cases h
  | cons c cs =>
    obtain ⟨hstart, htail⟩ := segmentProblem?_cons_eq_none_iff.mp h
    rw [isSegmentStart, Bool.or_eq_true] at hstart
    simp only [Record.isIdentifier, Bool.and_eq_true, Bool.or_eq_true, List.all_eq_true]
    refine ⟨.inl (hstart.imp isLetter_of_isAlpha id), fun d hd => .inl ?_⟩
    have hchar := List.all_eq_true.mp htail d hd
    rw [isSegmentChar, Bool.or_eq_true] at hchar
    exact hchar.imp isWordChar_of_isAlphanum id

theorem Settings.isQualifiedName_wrapperPackage {text : String} {settings : Settings}
    (h : parse text = .ok settings) {name : String} (hname : Record.isQualifiedName name = true) :
    Record.isQualifiedName (settings.wrapperPackage (packageOf name)) = true := by
  have hsuffix : Record.isQualifiedName settings.generator.packageSuffix = true :=
    List.all_eq_true.mpr fun segment hsegment =>
      isIdentifier_of_segmentProblem? (segmentProblem?_of_parse h segment hsegment)
  unfold wrapperPackage
  split
  . exact hsuffix
  . next hempty =>
    have htext : (packageOf name ++ "." ++ settings.generator.packageSuffix).toList =
        (packageOf name).toList ++ '.' :: settings.generator.packageSuffix.toList := by simp
    rw [Record.isQualifiedName, htext, IsDotted.pieces_append_dot, List.all_append,
      Bool.and_eq_true]
    refine ⟨?_, hsuffix⟩
    unfold packageOf at hempty ⊢
    split
    . next package behind hcut =>
      rw [Record.isQualifiedName, (cutLast?_eq_some hcut).1, IsDotted.pieces_append_dot,
        List.all_append, Bool.and_eq_true] at hname
      rw [String.toList_ofList]
      exact hname.1
    . next hcut =>
      rw [hcut] at hempty
      exact absurd rfl hempty

namespace Scala

/-- Whether a word is a name, reserved or not. It may end in an underscore, as no colon follows in a
path, but it may not be a single one. -/
def isWord (word : List Char) : Bool :=
  Record.isIdentifier word && word != ['_']

/-- Whether a segment of a path is a name that is not reserved, or a reserved one between backquotes. -/
def isLegalSegment (segment : List Char) : Bool :=
  (isWord segment && !isReserved (String.ofList segment)) ||
    reservedWords.any fun word => segment == (escaped word).toList

/-- Whether a path consists of legal segments with dots between them. -/
def isLegalPath (path : String) : Bool :=
  (pieces (· == '.') path.toList).all isLegalSegment

def isNameBreak (c : Char) : Bool :=
  c == '.' || c == '$'

def isLegalException (qualified : String) : Bool :=
  match simpleException? qualified with
  | some simple => isWord simple.toList && !isReserved simple
  | none => (pieces isNameBreak qualified.toList).all isWord

theorem isWord_of_isReserved {word : List Char} (h : isReserved (String.ofList word) = true) :
    isWord word = true := by
  have hwords : ∀ word ∈ reservedWords, isWord word.toList = true := by decide
  simpa using hwords _ (List.contains_iff_mem.mp h)

theorem isLegalSegment_of_not_mem {segment : List Char} (h : '`' ∉ segment) :
    isLegalSegment segment = (isWord segment && !isReserved (String.ofList segment)) := by
  have hescaped : (reservedWords.any fun word => segment == (escaped word).toList) = false := by
    rw [List.any_eq_false]
    intro word _ heq
    rw [beq_iff_eq] at heq
    rw [heq] at h
    simp [escaped] at h
  rw [isLegalSegment, hescaped, Bool.or_false]

/-- Escaping makes every word legal, and nothing else. -/
theorem isLegalSegment_segment {word : List Char} (h : '`' ∉ word) :
    isLegalSegment (segment word) = isWord word := by
  unfold segment
  split
  . next hreserved =>
    rw [isWord_of_isReserved hreserved, isLegalSegment, Bool.or_eq_true, List.any_eq_true]
    refine .inr ⟨_, List.contains_iff_mem.mp hreserved, ?_⟩
    simp [escaped]
  . next hfree =>
    have hfree : isReserved (String.ofList word) = false := by simpa using hfree
    rw [isLegalSegment_of_not_mem h, hfree, Bool.not_false, Bool.and_true]

theorem isLegalPath_append (path name : String) :
    isLegalPath (path ++ "." ++ name) = (isLegalPath path && isLegalPath name) := by
  have htext : (path ++ "." ++ name).toList = path.toList ++ '.' :: name.toList := by simp
  rw [isLegalPath, htext, IsDotted.pieces_append_dot, List.all_append]
  rfl

theorem isLegalPath_escapePath {path : String} (h : '`' ∉ path.toList) :
    isLegalPath (escapePath path) = (pieces (· == '.') path.toList).all isWord := by
  rw [isLegalPath, pieces_escapePath, List.all_map, Bool.eq_iff_iff, List.all_eq_true,
    List.all_eq_true]
  apply forall₂_congr
  intro word hword
  rw [Function.comp_apply, isLegalSegment_segment fun hmem => h (mem_of_mem_pieces hword hmem)]

theorem isLegalPath_of_not_mem {name : String} (h : '.' ∉ name.toList) :
    isLegalPath name = isLegalSegment name.toList := by
  rw [isLegalPath, pieces_of_not_mem h, List.all_cons, List.all_nil, Bool.and_true]

/-- A host class is referred to by the parts of its name between dots and dollar signs. -/
theorem isLegalPath_hostReference {qualified : String} (h : '`' ∉ qualified.toList) :
    isLegalPath (hostReference qualified) = (pieces isNameBreak qualified.toList).all isWord := by
  have hroot : hostReference qualified =
      "_root_" ++ "." ++ escapePath (sourceNameOf qualified) := rfl
  have hsource : '`' ∉ (sourceNameOf qualified).toList := by
    rw [sourceNameOf, replaceChar, String.toList_ofList, List.mem_map]
    rintro ⟨c, hc, htick⟩
    split at htick
    . cases htick
    . exact h (htick ▸ hc)
  have hlegal : isLegalPath "_root_" = true := by decide
  rw [hroot, isLegalPath_append, hlegal, Bool.true_and, isLegalPath_escapePath hsource,
    sourceNameOf, replaceChar, String.toList_ofList, pieces_map_both]
  rfl

theorem isLegalPath_exceptionReference {qualified : String} (h : '`' ∉ qualified.toList) :
    isLegalPath (exceptionReference qualified) = isLegalException qualified := by
  rw [exceptionReference_eq, isLegalException]
  cases hsimple : simpleException? qualified with
  | none => exact isLegalPath_hostReference h
  | some simple =>
    obtain ⟨rfl, hdot⟩ := simpleException?_eq_some.mp hsimple
    have htick : '`' ∉ simple.toList := fun hmem => h (by simp [hmem])
    rw [Option.getD_some, isLegalPath_of_not_mem hdot, isLegalSegment_of_not_mem htick,
      String.ofList_toList]

theorem isLegalPath_of_safeName? {name safe : String} (h : safeName? name = some safe) :
    isLegalPath safe = true := by
  rw [isLegalPath_of_not_mem (dot_not_mem_of_safeName? h)]
  obtain ⟨hreserved, rfl⟩ | ⟨hfree, hidentifier, rfl⟩ := safeName?_cases h
  . rw [isLegalSegment, Bool.or_eq_true, List.any_eq_true]
    exact .inr ⟨name, List.contains_iff_mem.mp hreserved, beq_self_eq_true _⟩
  . have hword : isWord safe.toList = true := by
      rw [isWord, hostIdentifier_of_isIdentifier hidentifier, Bool.true_and, bne_iff_ne]
      intro hunderscore
      rw [isIdentifier, hunderscore] at hidentifier
      revert hidentifier
      decide
    rw [isLegalSegment, hword, String.ofList_toList, hfree]
    rfl

theorem tick_not_mem_of_isQualifiedName {name : String} (h : Record.isQualifiedName name = true) :
    '`' ∉ name.toList := by
  intro hmem
  obtain ⟨word, hword, hmem⟩ := exists_mem_pieces '.' hmem (by decide)
  exact Record.not_mem_identifier (List.all_eq_true.mp h word hword) (by decide) hmem

/-- The path of a package is legal unless one of its segments is a single underscore. -/
theorem isLegalPath_package {package : String} (h : Record.isQualifiedName package = true) :
    isLegalPath (escapePath package) = true ↔ ['_'] ∉ pieces (· == '.') package.toList := by
  rw [isLegalPath_escapePath (tick_not_mem_of_isQualifiedName h), List.all_eq_true]
  constructor
  . intro hwords hmem
    have hword := hwords _ hmem
    revert hword
    decide
  . intro hmem word hword
    rw [isWord, List.all_eq_true.mp h word hword, Bool.true_and, bne_iff_ne]
    rintro rfl
    exact hmem hword

theorem isLegalPath_hostConstant {c : Outline.Constant}
    (hidentifier : Record.isIdentifier c.host.toList = true) {safe : String}
    (hsafe : safeName? c.host = some safe) (host : String) :
    isLegalPath (EnumWrapper.hostConstant host c) = isLegalPath host := by
  have hdot : '.' ∉ c.host.toList := Record.not_mem_identifier hidentifier (by decide)
  have hword : isWord c.host.toList = true := by
    rw [isWord, hidentifier, Bool.true_and, bne_iff_ne]
    intro hunderscore
    have hhost : c.host = "_" := String.toList_inj.mp hunderscore
    have hnone : safeName? "_" = none := by decide
    rw [hhost, hnone] at hsafe
    cases hsafe
  rw [EnumWrapper.hostConstant, isLegalPath_append,
    isLegalPath_escapePath (Record.not_mem_identifier hidentifier (by decide)),
    pieces_of_not_mem hdot, List.all_cons, hword, List.all_nil, Bool.and_true, Bool.and_true]

namespace Outline

/-- Whether the names that a wrapper is made from are fit for paths: no segment of its package is a
single underscore, the parts of the name of its class are words, and so are those of exceptions. -/
structure HasLegalNames (o : Outline) : Prop where
  package : ['_'] ∉ pieces (· == '.') o.package.toList
  className : ∀ part ∈ pieces isNameBreak o.className.toList, isWord part = true
  exceptions : ∀ e ∈ o.exceptions, isLegalException e = true

theorem safeName?_of_constants {pool : NamePool} {hosts : List String} {cs : List Constant}
    (h : constants pool hosts = .ok cs) :
    ∀ c ∈ cs, c.host ∈ hosts ∧ ∃ safe, safeName? c.host = some safe := by
  refine forall_of_constants (P := fun host _ => ∃ safe, safeName? host = some safe) ?_ h
  intro pool pool' base name hclaim
  replace hclaim := claim_of_claimName hclaim
  unfold NamePool.claim at hclaim
  cases hsafe : safeName? base with
  | none =>
    rw [hsafe] at hclaim
    cases hclaim
  | some safe => exact ⟨safe, rfl⟩

end Outline

end Scala

namespace Record

open Scala Settings

variable {markers : Markers} {enums : List String} {r : Record} {c : HostClass}
variable {catalog : Catalog} {o : Outline}

theorem isQualifiedName_of_readException {member name exception : String}
    (h : readException member name = .ok exception) : isQualifiedName exception = true := by
  unfold readException at h
  dsimp only at h
  split at h
  . split at h
    . next hqualified =>
      cases h
      exact hqualified
    . cases h
  . split at h
    . next hknown =>
      cases h
      have hall : ∀ e ∈ implicitExceptions, isQualifiedName e = true := by decide
      have hpackage : (pieces (· == '.') "java.lang".toList).all isIdentifier = true := by decide
      have hname : ("java.lang." ++ trimmed name).toList =
          "java.lang".toList ++ '.' :: (trimmed name).toList := by simp
      have hqualified := hall _ (List.contains_iff_mem.mp hknown)
      rw [isQualifiedName] at hqualified ⊢
      rw [hname, IsDotted.pieces_append_dot, List.all_append, hpackage, hqualified]
      rfl
    . cases h

theorem isQualifiedName_of_mem_exceptions (hdescribe : describe markers enums r = .ok c)
    (houtline : Outline.ofClass catalog c = .ok o) {e : String} (he : e ∈ o.exceptions) :
    isQualifiedName e = true := by
  cases hbody : o.body with
  | enumeration constants =>
    rw [Outline.exceptions, hbody] at he
    cases he
  | members constructors getters setters =>
    have hclass := isEnum_of_describe hdescribe (named_of_ofClass houtline hbody).1
    obtain ⟨m, -, name, -, hread⟩ := (mem_exceptions_iff hclass hdescribe houtline).mp he
    exact isQualifiedName_of_readException hread

theorem isIdentifier_of_mem_constants (hdescribe : describe markers enums r = .ok c)
    (houtline : Outline.ofClass catalog c = .ok o) {constants : List Outline.Constant}
    (hbody : o.body = .enumeration constants) {k : Outline.Constant} (hk : k ∈ constants) :
    isIdentifier k.host.toList = true ∧ ∃ safe, safeName? k.host = some safe := by
  obtain ⟨henum, hconstants⟩ := constants_of_ofClass houtline hbody
  obtain ⟨hmem, hsafe⟩ := Outline.safeName?_of_constants hconstants k hk
  cases hrecord : r.isEnum with
  | false =>
    rw [(bound_of_describe hrecord hdescribe).2.2.isEnum] at henum
    cases henum
  | true =>
    obtain ⟨-, hidentifiers, -, rfl⟩ := enumeration_of_describe hrecord hdescribe
    exact ⟨hidentifiers _ hmem, hsafe⟩

end Record

namespace Batch

open Scala

variable {text : String} {settings : Settings} {records : List Record} {result : Result}
variable {catalog : Catalog} {outlines : List Outline}

theorem Outlined.isQualifiedName (hparse : Settings.parse text = .ok settings)
    (h : Outlined settings records result catalog outlines) {o : Outline} (ho : o ∈ outlines) :
    Record.isQualifiedName o.className = true ∧ Record.isQualifiedName o.package = true ∧
      ∀ e ∈ o.exceptions, Record.isQualifiedName e = true := by
  obtain ⟨entry, -, -, hpackage, -, -⟩ := h.exists_entry ho
  obtain ⟨r, -, c, hdescribe, houtline⟩ := h.described o ho
  obtain ⟨_, _, -, -, -, heq⟩ := Outline.ofClass_cases houtline
  have hclass : Record.isQualifiedName o.className = true := by
    rw [heq]
    exact Record.isQualifiedName_of_describe hdescribe
  refine ⟨hclass, ?_, fun e he => Record.isQualifiedName_of_mem_exceptions hdescribe houtline he⟩
  rw [hpackage]
  exact Settings.isQualifiedName_wrapperPackage hparse hclass

theorem Outlined.isLegalPath_of_mem_paths (hparse : Settings.parse text = .ok settings)
    (h : Outlined settings records result catalog outlines)
    (hlegal : ∀ o ∈ outlines, o.HasLegalNames) {o : Outline} (ho : o ∈ outlines) {path : String}
    (hpath : path ∈ o.paths) : isLegalPath path = true := by
  obtain ⟨hclass, hpackage, hexceptions⟩ := h.isQualifiedName hparse ho
  obtain ⟨r, -, c, hdescribe, houtline⟩ := h.described o ho
  have hhost : isLegalPath (hostReference o.className) = true := by
    rw [isLegalPath_hostReference (tick_not_mem_of_isQualifiedName hclass), List.all_eq_true]
    exact (hlegal o ho).className
  unfold Outline.paths at hpath
  dsimp only at hpath
  simp only [List.mem_append, List.mem_cons, List.mem_flatMap, List.mem_map] at hpath
  -- the path is for the package, the class, a constant, a wrapper or an exception
  obtain ((hpath | rfl | hpath) | ⟨type, htype, w, hw, rfl⟩) | ⟨e, he, rfl⟩ := hpath
  . split at hpath
    . cases hpath
    . rw [List.mem_singleton.mp hpath]
      exact (isLegalPath_package hpackage).mpr (hlegal o ho).package
  . exact hhost
  . split at hpath
    . next constants hbody =>
      obtain ⟨k, hk, rfl⟩ := List.mem_map.mp hpath
      obtain ⟨hidentifier, safe, hsafe⟩ :=
        Record.isIdentifier_of_mem_constants hdescribe houtline hbody hk
      rw [isLegalPath_hostConstant hidentifier hsafe, hhost]
    . cases hpath
  . obtain ⟨o', ho', hrender⟩ := h.exists_reference ho htype hw
    obtain ⟨entry, -, -, -, -, hname⟩ := h.exists_entry ho'
    rw [hrender]
    split
    . exact isLegalPath_of_safeName? hname
    . have hroot : rootStart ++ escapePath o'.package ++ "." ++ o'.name =
          "_root_" ++ "." ++ escapePath o'.package ++ "." ++ o'.name := rfl
      have hstart : isLegalPath "_root_" = true := by decide
      rw [hroot, isLegalPath_append, isLegalPath_append, hstart, isLegalPath_of_safeName? hname,
        (isLegalPath_package (h.isQualifiedName hparse ho').2.1).mpr (hlegal o' ho').package]
      rfl
  . rw [isLegalPath_exceptionReference (tick_not_mem_of_isQualifiedName (hexceptions e he))]
    exact (hlegal o ho).exceptions e he

theorem Outlined.hasLegalNames (hparse : Settings.parse text = .ok settings)
    (h : Outlined settings records result catalog outlines) {o : Outline} (ho : o ∈ outlines)
    (hlegal : ∀ path ∈ o.paths, isLegalPath path = true) : o.HasLegalNames := by
  obtain ⟨hclass, hpackage, hexceptions⟩ := h.isQualifiedName hparse ho
  constructor
  . rw [← isLegalPath_package hpackage]
    have hne : o.package.isEmpty = false := by
      rw [String.isEmpty_eq_false_iff]
      rintro hempty
      rw [hempty] at hpackage
      cases hpackage
    exact hlegal _ (by simp [Outline.paths, hne])
  . have hhost := hlegal (hostReference o.className) (by simp [Outline.paths])
    rw [isLegalPath_hostReference (tick_not_mem_of_isQualifiedName hclass)] at hhost
    exact List.all_eq_true.mp hhost
  . intro e he
    rw [← isLegalPath_exceptionReference (tick_not_mem_of_isQualifiedName (hexceptions e he))]
    apply hlegal
    exact List.mem_append_right _ (List.mem_map_of_mem he)

/--
The paths by which the files of a batch refer to packages, classes, constants and exceptions are all
written in them, and they are legal just if no package of a wrapper has a single underscore in it, the
parts of the names of classes between dots and dollar signs are words, and those of exceptions are.
-/
theorem paths_legal_iff (hparse : Settings.parse text = .ok settings)
    (h : Yields settings records result) :
    ∃ catalog outlines, Outlined settings records result catalog outlines ∧
      (∀ o ∈ outlines, ∀ path ∈ o.paths, Within path o.file.content) ∧
      ((∀ o ∈ outlines, ∀ path ∈ o.paths, isLegalPath path = true) ↔
        ∀ o ∈ outlines, o.HasLegalNames) := by
  obtain ⟨catalog, outlines, houtlined⟩ := h.exists_outlined
  refine ⟨catalog, outlines, houtlined, fun o _ path => Outline.within_content_of_path, ?_, ?_⟩
  . exact fun hlegal o ho => houtlined.hasLegalNames hparse ho (hlegal o ho)
  . exact fun hlegal o ho path => houtlined.isLegalPath_of_mem_paths hparse hlegal ho

def nestedRecord : Record :=
  Report.readerRecord "p.Outer$Inner" []

theorem exceptions_nestedRecord
    (h : Outlined nestedSettings [nestedRecord] result catalog outlines) {o : Outline}
    (ho : o ∈ outlines) : o.exceptions = [] := by
  obtain ⟨r, hr, c, hdescribe, houtline⟩ := h.described o ho
  rw [List.mem_singleton.mp hr] at hdescribe
  rw [List.eq_nil_iff_forall_not_mem]
  intro e he
  obtain ⟨m, hm, -⟩ := (Record.mem_exceptions_iff rfl hdescribe houtline).mp he
  cases hm

set_option maxRecDepth 10000 in
/-- All paths for a nested class are legal. -/
theorem paths_legal_iff_nested :
    Settings.parse nestedText = .ok nestedSettings ∧
    ∃ result catalog o, Yields nestedSettings [nestedRecord] result ∧
      Outlined nestedSettings [nestedRecord] result catalog [o] ∧ o.className = "p.Outer$Inner" ∧
      ∀ path ∈ o.paths, Within path o.file.content ∧ isLegalPath path = true := by
  have houtcome : (outcomeOf nestedSettings [nestedRecord]).map (fun result =>
      result.generated.map Prod.fst) = .ok ["p.Outer$Inner"] := rfl
  obtain ⟨result, hyields, hgenerated⟩ := exists_yields_of_map houtcome
  obtain ⟨catalog, outlines, houtlined, hwithin, hiff⟩ := paths_legal_iff parse_nestedText hyields
  rw [← houtlined.map_className] at hgenerated
  obtain ⟨o, rfl, hname⟩ := List.map_eq_singleton_iff.mp hgenerated
  simp only [List.forall_mem_singleton] at hwithin hiff
  have hlegal : o.HasLegalNames := by
    constructor
    . obtain ⟨entry, -, -, hpackage, -, -⟩ := houtlined.exists_entry List.mem_cons_self
      rw [hpackage, hname]
      decide
    . rw [hname]
      decide
    . rw [exceptions_nestedRecord houtlined List.mem_cons_self]
      exact nofun
  exact ⟨parse_nestedText, result, catalog, o, hyields, houtlined, hname,
    fun path hpath => ⟨hwithin path hpath, hiff.mpr hlegal path hpath⟩⟩

def dollarRecord : Record :=
  Report.readerRecord "p.Item$" []

set_option maxRecDepth 10000 in
/-- The class of the host is referred to by a path that ends in a dot. -/
theorem path_without_name :
    Settings.parse nestedText = .ok nestedSettings ∧
    ∃ result catalog o, Yields nestedSettings [dollarRecord] result ∧
      Outlined nestedSettings [dollarRecord] result catalog [o] ∧ o.className = "p.Item$" ∧
      "_root_.p.Item." ∈ o.paths ∧ Within "_root_.p.Item." o.file.content ∧
      isLegalPath "_root_.p.Item." = false := by
  have houtcome : (outcomeOf nestedSettings [dollarRecord]).map (fun result =>
      result.generated.map Prod.fst) = .ok ["p.Item$"] := rfl
  obtain ⟨result, hyields, hgenerated⟩ := exists_yields_of_map houtcome
  obtain ⟨catalog, outlines, houtlined⟩ := hyields.exists_outlined
  rw [← houtlined.map_className] at hgenerated
  obtain ⟨o, rfl, hname⟩ := List.map_eq_singleton_iff.mp hgenerated
  have hreference : hostReference o.className = "_root_.p.Item." := by
    rw [hname]
    decide
  have hpath : "_root_.p.Item." ∈ o.paths := by
    rw [← hreference]
    simp [Outline.paths]
  exact ⟨parse_nestedText, result, catalog, o, hyields, houtlined, hname, hpath,
    Outline.within_content_of_path hpath, by decide⟩

end Batch

end Facade
