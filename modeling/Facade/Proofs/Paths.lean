import Facade.Proofs.Files.Store
import Facade.Proofs.Outline.Spec
import Facade.Proofs.Results
import Facade.Settings.Reader

/-!
This module contains the proofs about the paths of wrappers: each leads down from the directory that it
is taken from, and no two wrappers of a batch have the same one.
-/

namespace Facade

open Text Host Outcome Scala Files

/-- Whether a name consists of segments with dots between them, none of which is empty or holds a
slash. -/
structure IsDotted (name : List Char) : Prop where
  segments : ∀ segment ∈ pieces (· == '.') name, segment ≠ []
  slash : '/' ∉ name

namespace IsDotted

variable {name front rest : List Char}

theorem ne_nil (h : IsDotted name) : name ≠ [] := by
  rintro rfl
  exact h.segments [] List.mem_cons_self rfl

theorem of_forall (isWord : List Char → Bool) (hnil : isWord [] = false)
    (hslash : ∀ segment, isWord segment = true → '/' ∉ segment)
    (h : ∀ segment ∈ pieces (· == '.') name, isWord segment = true) : IsDotted name := by
  constructor
  . rintro _ hsegment rfl
    rw [h [] hsegment] at hnil
    cases hnil
  . intro hmem
    obtain ⟨segment, hsegment, hmem⟩ := exists_mem_pieces '.' hmem (by decide)
    exact hslash segment (h segment hsegment) hmem

theorem pieces_append_dot (cs ds : List Char) :
    pieces (· == '.') (cs ++ '.' :: ds) = pieces (· == '.') cs ++ pieces (· == '.') ds :=
  @pieces_append_cons (· == '.') '.' rfl cs ds

theorem append_iff :
    IsDotted (front ++ '.' :: rest) ↔ IsDotted front ∧ IsDotted rest := by
  constructor
  . intro h
    have hsegments := h.segments
    rw [pieces_append_dot, List.forall_mem_append] at hsegments
    have hslash := h.slash
    rw [List.mem_append, not_or] at hslash
    exact ⟨⟨hsegments.1, hslash.1⟩, ⟨hsegments.2, fun h => hslash.2 (List.mem_cons_of_mem _ h)⟩⟩
  . rintro ⟨hfront, hrest⟩
    constructor
    . rw [pieces_append_dot, List.forall_mem_append]
      exact ⟨hfront.segments, hrest.segments⟩
    . rw [List.mem_append, List.mem_cons, not_or, not_or]
      exact ⟨hfront.slash, by decide, hrest.slash⟩

theorem getLast?_ne_dot (h : IsDotted name) : name.getLast? ≠ some '.' := by
  intro hlast
  obtain ⟨front, rfl⟩ := List.getLast?_eq_some_iff.mp hlast
  exact (append_iff.mp h).2.ne_nil rfl

theorem isPlain (h : IsDotted name) {segment : List Char}
    (hsegment : segment ∈ pieces (· == '.') name) : Path.IsPlain segment := by
  have hdot : '.' ∉ segment := fun hmem => by
    have hsep := not_sep_of_mem_pieces hsegment hmem
    cases hsep
  exact Path.isPlain_of_dot_not_mem (h.segments segment hsegment) hdot

theorem of_isQualifiedName {name : String} (h : Record.isQualifiedName name = true) :
    IsDotted name.toList := by
  refine of_forall Record.isIdentifier rfl (fun segment hsegment hslash => ?_) (List.all_eq_true.mp h)
  have hchar : ∀ c ∈ segment, (isWordChar c || c == '_' || c == '$') = true := by
    cases segment with
    | nil => cases hslash
    | cons c cs =>
      rw [Record.isIdentifier, Bool.and_eq_true, List.all_eq_true] at hsegment
      rw [List.forall_mem_cons]
      refine ⟨?_, hsegment.2⟩
      rw [isWordChar]
      grind
  have hfalse := hchar '/' hslash
  revert hfalse
  decide

theorem packageOf {name : String} (h : IsDotted name.toList) :
    packageOf name = "" ∨ IsDotted (packageOf name).toList := by
  unfold Host.packageOf
  split
  . next package behind hcut =>
    right
    rw [(cutLast?_eq_some hcut).1, append_iff] at h
    rw [String.toList_ofList]
    exact h.1
  . exact .inl rfl

end IsDotted

theorem Record.isQualifiedName_of_describe {markers : Settings.Markers} {enums : List String}
    {r : Record} {c : HostClass} (h : describe markers enums r = .ok c) :
    isQualifiedName c.name = true := by
  rw [describe_name h]
  obtain ⟨_, hcheck, -⟩ := bind_eq_ok_iff.mp h
  unfold checkClassName at hcheck
  split at hcheck
  . cases hcheck
  . split at hcheck
    . next hqualified => exact hqualified
    . cases hcheck

theorem Record.isDotted_of_describe {markers : Settings.Markers} {enums : List String} {r : Record}
    {c : HostClass} (h : describe markers enums r = .ok c) : IsDotted c.name.toList :=
  .of_isQualifiedName (isQualifiedName_of_describe h)

namespace Settings

theorem problem?_of_parse {text : String} {settings : Settings} (h : parse text = .ok settings) :
    settings.problem? text = none := by
  unfold parse at h
  split at h
  . cases h
  . split at h
    . cases h
    . split at h
      . cases h
      . next hproblem =>
        cases h
        exact hproblem

theorem segmentProblem?_cons_eq_none_iff {c : Char} {cs : List Char} :
    segmentProblem? (c :: cs) = none ↔ isSegmentStart c = true ∧ cs.all isSegmentChar = true := by
  unfold segmentProblem?
  dsimp only
  cases isSegmentStart c <;> cases cs.all isSegmentChar <;> simp

theorem isSegmentChar_of_mem {segment : List Char} (h : segmentProblem? segment = none) {c : Char}
    (hc : c ∈ segment) : isSegmentChar c = true := by
  cases segment with
  | nil => cases hc
  | cons d ds =>
    obtain ⟨hstart, htail⟩ := segmentProblem?_cons_eq_none_iff.mp h
    obtain rfl | hc := List.mem_cons.mp hc
    . rw [isSegmentStart, Bool.or_eq_true] at hstart
      rw [isSegmentChar, Char.isAlphanum]
      obtain h | h := hstart <;> simp [h]
    . exact List.all_eq_true.mp htail c hc

theorem segmentProblem?_of_parse {text : String} {settings : Settings}
    (h : parse text = .ok settings) :
    ∀ segment ∈ pieces (· == '.') settings.generator.packageSuffix.toList,
      segmentProblem? segment = none := by
  have hproblem := problem?_of_parse h
  unfold problem? at hproblem
  dsimp only at hproblem
  split at hproblem
  . cases hproblem
  . next hsuffix =>
    unfold suffixProblem? at hsuffix
    split at hsuffix
    . cases hsuffix
    . exact List.findSome?_eq_none_iff.mp hsuffix

theorem isDotted_packageSuffix {text : String} {settings : Settings}
    (h : parse text = .ok settings) : IsDotted settings.generator.packageSuffix.toList := by
  refine .of_forall (fun segment => (segmentProblem? segment).isNone) rfl ?_ ?_
  . intro segment hsegment hslash
    have hfalse := isSegmentChar_of_mem (Option.isNone_iff_eq_none.mp hsegment) hslash
    revert hfalse
    decide
  . intro segment hsegment
    rw [segmentProblem?_of_parse h segment hsegment]
    rfl

theorem isDotted_wrapperPackage {settings : Settings} {package : String}
    (hsuffix : IsDotted settings.generator.packageSuffix.toList)
    (hpackage : package = "" ∨ IsDotted package.toList) :
    IsDotted (settings.wrapperPackage package).toList := by
  unfold wrapperPackage
  split
  . exact hsuffix
  . next hempty =>
    obtain rfl | hpackage := hpackage
    . exact absurd rfl hempty
    . have happend : (package ++ "." ++ settings.generator.packageSuffix).toList =
          package.toList ++ '.' :: settings.generator.packageSuffix.toList := by simp
      rw [happend, IsDotted.append_iff]
      exact ⟨hpackage, hsuffix⟩

end Settings

namespace Scala.Outline

/-- The file for a wrapper is in the directory for its package. -/
theorem pieces_path {o : Outline} (hpackage : IsDotted o.package.toList)
    (hstem : '/' ∉ o.fileStem.toList) :
    pieces (· == '/') o.path.toList =
      pieces (· == '.') o.package.toList ++ [o.fileStem.toList ++ ".scala".toList] := by
  have hpath : o.path = Path.join (directoryOf o.package) (o.fileStem ++ ".scala") := by
    rw [path, if_neg]
    simpa using hpackage.ne_nil
  -- The file itself is one part, and the directory has a slash for each dot of the package.
  have hslash : ∀ c ∈ (o.fileStem ++ ".scala").toList, (c == '/') = false := by
    intro c hc
    rw [String.toList_append, List.mem_append] at hc
    apply beq_false_of_ne
    rintro rfl
    obtain hc | hc := hc
    . exact hstem hc
    . revert hc
      decide
  have habsolute : Path.isAbsolute (o.fileStem ++ ".scala") = false := by
    cases hpath : Path.isAbsolute (o.fileStem ++ ".scala") with
    | false => rfl
    | true =>
      have hfirst := hslash '/' (List.mem_of_head? (beq_iff_eq.mp hpath))
      cases hfirst
  have hdirectory : (directoryOf o.package).toList =
      o.package.toList.map fun c => if c = '.' then '/' else c := by
    rw [directoryOf, replaceChar, String.toList_ofList]
  have hempty : directoryOf o.package ≠ "" := by
    rw [ne_eq, ← String.toList_inj, hdirectory]
    simpa using hpackage.ne_nil
  have hend : (directoryOf o.package).toList.getLast? ≠ some '/' := by
    rw [hdirectory, List.getLast?_map, ne_eq, Option.map_eq_some_iff]
    rintro ⟨c, hlast, hc⟩
    split at hc
    . next hdot => exact hpackage.getLast?_ne_dot (hdot ▸ hlast)
    . exact hpackage.slash (hc ▸ List.mem_of_getLast? hlast)
  rw [hpath, Path.pieces_join habsolute hempty hend, hdirectory, pieces_map_replace hpackage.slash,
    pieces_of_not_sep hslash, String.toList_append]

theorem descends_path {o : Outline} (hpackage : IsDotted o.package.toList)
    (hstem : '/' ∉ o.fileStem.toList) : Path.Descends o.path := by
  intro part hpart
  rw [pieces_path hpackage hstem, List.mem_append, List.mem_singleton] at hpart
  obtain hpart | rfl := hpart
  . exact hpackage.isPlain hpart
  . refine ⟨?_, ?_, ?_⟩ <;> intro heq <;> have hlength := congrArg List.length heq <;>
      simp at hlength

end Scala.Outline

namespace Batch

variable {text : String} {settings : Settings} {records : List Record} {result : Result}

theorem Yields.path_of_mem (hparse : Settings.parse text = .ok settings)
    (h : Yields settings records result) {name : String} {file : GeneratedFile}
    (hmem : (name, file) ∈ result.generated) :
    Path.Descends file.path ∧ pieces (· == '/') file.path.toList =
      pieces (· == '.') (Catalog.wrapperPlace settings name).1.toList ++
        [(Catalog.wrapperPlace settings name).2.toList ++ ".scala".toList] := by
  obtain ⟨r, -, c, catalog, outline, -, rfl, hfrom, houtline, rfl⟩ := h.outline_of_mem hmem
  obtain ⟨entry, wrapper, hentry, -, -, ho⟩ := Outline.ofClass_cases houtline
  obtain ⟨r', -, c', hdescribe, hname, rfl⟩ := hfrom _ _ hentry
  have hdotted := Record.isDotted_of_describe hdescribe
  have hpackage : IsDotted (settings.wrapperPackage c'.package).toList :=
    Settings.isDotted_wrapperPackage (Settings.isDotted_packageSuffix hparse) hdotted.packageOf
  have hstem : '/' ∉ (pascalCase c'.simpleName).toList := fun hslash =>
    not_mem_simpleNameOf hdotted.slash (mem_of_mem_pascalCase (by decide) hslash)
  -- the file is named for the wrapper's name, which is in Pascal case already
  have hplace : Catalog.wrapperPlace settings c.name = (outline.package, outline.fileStem) := by
    rw [ho, ← hname]
    simp only [Catalog.Entry.ofClass, pascalCase_pascalCase]
    rfl
  have hpackage : IsDotted outline.package.toList := by
    rw [ho]
    exact hpackage
  have hstem : '/' ∉ outline.fileStem.toList := by
    rw [ho]
    simp only [Catalog.Entry.ofClass, pascalCase_pascalCase]
    exact hstem
  rw [hplace]
  exact ⟨outline.descends_path hpackage hstem, outline.pieces_path hpackage hstem⟩

theorem Yields.nodup_paths (hparse : Settings.parse text = .ok settings)
    (h : Yields settings records result) : (result.generated.map fun e => e.2.path).Nodup := by
  have hplaces := h.nodup_places
  apply List.Nodup.map_on _ hplaces.of_map
  intro e he e' he' hpath
  apply List.inj_on_of_nodup_map hplaces he he'
  -- The parts of a path tell the package and the name of the wrapper, and no two have both in common.
  have hpieces := (h.path_of_mem hparse he).2
  rw [hpath, (h.path_of_mem hparse he').2] at hpieces
  obtain ⟨hpackage, hstem⟩ := List.append_inj' hpieces (by simp only [List.length_singleton])
  rw [List.singleton_inj] at hstem
  exact Prod.ext (String.toList_inj.mp (eq_of_pieces_eq hpackage.symm))
    (String.toList_inj.mp (List.append_cancel_right hstem.symm))

end Batch

end Facade
