import Facade.Proofs.Paths

/-!
This module contains the proofs about the places in a store that wrappers are written to: whatever the
settings are, no two wrappers of a batch have the same one.
-/

namespace Facade

open Text Host Outcome Scala Files

namespace Files

namespace Path

/-- The parts of a path that make a difference. -/
def solid (path : Path) : List (List Char) :=
  (pieces (· == '/') path.toList).filter (!isIdle ·)

theorem solid_append_slash {path : Path} (front : Path) (rest : List Char)
    (h : path.toList = front.toList ++ '/' :: rest) :
    solid path = solid front ++ (pieces (· == '/') rest).filter (!isIdle ·) := by
  rw [solid, h, pieces_append_slash, List.filter_append, solid]

theorem solid_join (directory : Path) {path : Path} (h : isAbsolute path = false) :
    solid (join directory path) = solid directory ++ solid path ∧
      isAbsolute (join directory path) = isAbsolute directory := by
  by_cases hempty : directory = ""
  . have hjoin : join directory path = path := by simp [join, hempty]
    rw [hjoin, hempty]
    exact ⟨rfl, h⟩
  by_cases hend : directory.toList.getLast? = some '/'
  . obtain ⟨front, hfront⟩ := List.getLast?_eq_some_iff.mp hend
    have hjoin : join directory path = directory ++ path := by simp [join, h, hempty, hend]
    -- The directory brings its slash, behind which it has only an empty part.
    have hdirectory : solid directory = solid (String.ofList front) := by
      rw [solid_append_slash (String.ofList front) [] (by rw [hfront, String.toList_ofList])]
      simp [pieces, isIdle]
    refine ⟨?_, by rw [hjoin, isAbsolute_append hempty]⟩
    rw [hdirectory, hjoin]
    apply solid_append_slash
    rw [String.toList_append, hfront, String.toList_ofList, List.append_assoc,
      List.singleton_append]
  . have hjoin : join directory path = directory ++ "/" ++ path := by
      simp [join, h, hempty, hend]
    refine ⟨?_, by rw [hjoin, String.append_assoc, isAbsolute_append hempty]⟩
    apply solid_append_slash
    simp [hjoin]

end Path

theorem destination_filter (location : Location) (parts : List (List Char)) :
    destination location (parts.filter (!Path.isIdle ·)) = destination location parts := by
  induction parts generalizing location with
  | nil => rfl
  | cons part parts ih =>
    rw [List.filter_cons, destination]
    cases hidle : Path.isIdle part with
    | true => exact ih location
    | false =>
      rw [Bool.not_false, if_pos rfl, destination, hidle, if_neg Bool.false_ne_true,
        if_neg Bool.false_ne_true, ih, ih]

theorem Store.target_eq (store : Store) (path : Path) :
    store.target path = destination (store.start path) path.solid :=
  (destination_filter _ _).symm

/-- A path without parts that lead upwards leads on from the directory that it is taken from. -/
theorem Store.target_join {store : Store} {directory path : Path}
    (hup : ∀ part ∈ path.solid, Path.IsPlain part) :
    store.target (Path.join directory path) =
      (if path.isAbsolute then [] else store.target directory) ++ path.solid.map String.ofList := by
  cases habsolute : path.isAbsolute with
  | true =>
    have hjoin : Path.join directory path = path := by simp [Path.join, habsolute]
    rw [hjoin, target_eq, start, habsolute, if_pos rfl, if_pos rfl, destination_of_isPlain hup]
  | false =>
    obtain ⟨hsolid, hstart⟩ := Path.solid_join directory habsolute
    rw [target_eq, start, hstart, hsolid, destination_append, destination_of_isPlain hup,
      if_neg Bool.false_ne_true, target_eq, start]

end Files

namespace Scala.Outline

theorem path_eq (o : Outline) :
    o.path = Path.join (directoryOf o.package) (o.fileStem ++ ".scala") := by
  unfold path
  dsimp only
  split
  . next hempty =>
    rw [String.isEmpty_iff.mp hempty]
    rfl
  . rfl

end Scala.Outline

theorem toList_directoryOf (package : String) :
    (directoryOf package).toList = package.toList.map fun c => if c = '.' then '/' else c := by
  rw [directoryOf, replaceChar, String.toList_ofList]

theorem isPlain_of_mem_solid_directoryOf {package : String} {part : List Char}
    (h : part ∈ Path.solid (directoryOf package)) : Path.IsPlain part := by
  obtain ⟨hpart, hidle⟩ := List.mem_filter.mp h
  have hdot : '.' ∉ part := by
    intro hmem
    have hmem := mem_of_mem_pieces hpart hmem
    rw [toList_directoryOf, List.mem_map] at hmem
    obtain ⟨c, -, hc⟩ := hmem
    split at hc
    . revert hc
      decide
    . next hne => exact hne hc
  refine Path.isPlain_of_dot_not_mem ?_ hdot
  rintro rfl
  cases hidle

theorem solid_join_stem (directory : Path) {stem : String} (h : '/' ∉ stem.toList) :
    Path.isAbsolute (Path.join directory (stem ++ ".scala")) = Path.isAbsolute directory ∧
      Path.solid (Path.join directory (stem ++ ".scala")) =
        Path.solid directory ++ [stem.toList ++ ".scala".toList] := by
  have hslash : '/' ∉ (stem ++ ".scala").toList := by
    rw [String.toList_append, List.mem_append, not_or]
    exact ⟨h, by decide⟩
  have habsolute : Path.isAbsolute (stem ++ ".scala") = false := by
    cases hpath : Path.isAbsolute (stem ++ ".scala") with
    | false => rfl
    | true => exact absurd (List.mem_of_head? (beq_iff_eq.mp hpath)) hslash
  have hsolid : Path.solid (stem ++ ".scala") = [stem.toList ++ ".scala".toList] := by
    have hidle : Path.isIdle (stem.toList ++ ".scala".toList) = false := by
      rw [Path.isIdle, Bool.or_eq_false_iff, beq_eq_false_iff_ne]
      refine ⟨by simp, fun heq => ?_⟩
      have hlength := congrArg List.length heq
      simp at hlength
    have hnone : ∀ c ∈ (stem ++ ".scala").toList, (c == '/') = false := by
      intro c hc
      apply beq_false_of_ne
      rintro rfl
      exact hslash hc
    rw [Path.solid, pieces_of_not_sep hnone, String.toList_append, List.filter_cons, hidle,
      Bool.not_false, if_pos rfl, List.filter_nil]
  obtain ⟨hjoin, hstart⟩ := Path.solid_join directory habsolute
  exact ⟨hstart, by rw [hjoin, hsolid]⟩

section

variable {settings : Settings} {package : String}

theorem solid_directoryOf (h : IsDotted package.toList) :
    Path.solid (directoryOf package) = pieces (· == '.') package.toList := by
  rw [Path.solid, toList_directoryOf, pieces_map_replace h.slash, List.filter_eq_self]
  intro part hpart
  rw [(h.isPlain hpart).isIdle, Bool.not_false]

theorem solid_wrapperPackage (settings : Settings) (package : String) :
    Path.solid (directoryOf (settings.wrapperPackage package)) =
      Path.solid (directoryOf package) ++
        Path.solid (directoryOf settings.generator.packageSuffix) := by
  unfold Settings.wrapperPackage
  split
  . next hempty =>
    rw [String.isEmpty_iff.mp hempty]
    rfl
  . rw [Path.solid_append_slash (directoryOf package)
      (directoryOf settings.generator.packageSuffix).toList]
    . rfl
    . simp [toList_directoryOf]

theorem isAbsolute_wrapperPackage (settings : Settings) (h : IsDotted package.toList) :
    Path.isAbsolute (directoryOf (settings.wrapperPackage package)) = false := by
  have hne : package.isEmpty = false := by simpa using h.ne_nil
  obtain ⟨c, cs, hcons⟩ := List.exists_cons_of_ne_nil h.ne_nil
  have hdot : c ≠ '.' := by
    rintro rfl
    have hnil : [] ∈ pieces (· == '.') package.toList := by
      rw [hcons, pieces_cons_of_sep rfl]
      exact List.mem_cons_self
    exact h.segments [] hnil rfl
  have hslash : c ≠ '/' := by
    rintro rfl
    exact h.slash (hcons ▸ List.mem_cons_self)
  simp [Path.isAbsolute, toList_directoryOf, Settings.wrapperPackage, hne, hcons, hdot, hslash]

end

namespace Batch

variable {settings : Settings} {records : List Record} {result : Result}

theorem Yields.path_eq_of_mem (h : Yields settings records result) {name : String}
    {file : GeneratedFile} (hmem : (name, file) ∈ result.generated) :
    IsDotted name.toList ∧
      file.path = Path.join (directoryOf (settings.wrapperPackage (packageOf name)))
        (pascalCase (simpleNameOf name) ++ ".scala") := by
  obtain ⟨r, -, c, catalog, outline, hdescribe, rfl, hfrom, houtline, rfl⟩ := h.outline_of_mem hmem
  obtain ⟨entry, wrapper, hentry, -, -, ho⟩ := Outline.ofClass_cases houtline
  obtain ⟨r', -, c', -, hname, rfl⟩ := hfrom _ _ hentry
  have hpackage : settings.wrapperPackage (packageOf c.name) = outline.package := by
    rw [ho, ← hname]
    rfl
  have hstem : pascalCase (simpleNameOf c.name) = outline.fileStem := by
    rw [ho, ← hname]
    simp only [Catalog.Entry.ofClass, pascalCase_pascalCase]
    rfl
  rw [hpackage, hstem]
  exact ⟨Record.isDotted_of_describe hdescribe, outline.path_eq⟩

theorem Yields.target_of_mem (h : Yields settings records result) {name : String}
    {file : GeneratedFile} (hmem : (name, file) ∈ result.generated) (store : Store)
    (directory : Path) :
    store.target (Path.join directory file.path) =
      (if Path.isAbsolute (directoryOf (settings.wrapperPackage (packageOf name))) then []
        else store.target directory) ++
      (Path.solid (directoryOf (packageOf name)) ++
        Path.solid (directoryOf settings.generator.packageSuffix) ++
          [(pascalCase (simpleNameOf name)).toList ++ ".scala".toList]).map String.ofList := by
  obtain ⟨hdotted, hpath⟩ := h.path_eq_of_mem hmem
  have hstem : '/' ∉ (pascalCase (simpleNameOf name)).toList := fun hslash =>
    not_mem_simpleNameOf hdotted.slash (mem_of_mem_pascalCase (by decide) hslash)
  obtain ⟨habsolute, hsolid⟩ :=
    solid_join_stem (directoryOf (settings.wrapperPackage (packageOf name))) hstem
  have hplain : ∀ part ∈ file.path.solid, Path.IsPlain part := by
    rw [hpath, hsolid]
    intro part hpart
    obtain hpart | hpart := List.mem_append.mp hpart
    . exact isPlain_of_mem_solid_directoryOf hpart
    . rw [List.mem_singleton.mp hpart]
      refine ⟨?_, ?_, ?_⟩ <;> intro heq <;> have hlength := congrArg List.length heq <;>
        simp at hlength
  rw [Store.target_join hplain, hpath, habsolute, hsolid, solid_wrapperPackage]

/-- A class outside all packages shares the place of its file with no class of a package. -/
theorem Yields.packageOf_eq_empty (h : Yields settings records result) {name name' : String}
    {file file' : GeneratedFile} (hmem : (name, file) ∈ result.generated)
    (hmem' : (name', file') ∈ result.generated) {store : Store} {directory : Path}
    (htarget : store.target (Path.join directory file.path) =
      store.target (Path.join directory file'.path)) (hempty : packageOf name = "") :
    packageOf name' = "" := by
  obtain hempty' | hdotted := (h.path_eq_of_mem hmem').1.packageOf
  . exact hempty'
  -- The way to the file has more steps if there is a package.
  exfalso
  have hpieces := exists_pieces (· == '.') (packageOf name').toList
  have hlength := congrArg List.length htarget
  rw [h.target_of_mem hmem, h.target_of_mem hmem', isAbsolute_wrapperPackage settings hdotted,
    solid_directoryOf hdotted, hempty] at hlength
  obtain ⟨p, ps, hcons⟩ := hpieces
  have hnil : Path.solid (directoryOf "") = [] := rfl
  rw [hcons, hnil] at hlength
  simp only [List.length_append, List.length_map, List.length_cons, List.length_nil] at hlength
  split at hlength
  . simp at hlength
    omega
  . simp at hlength

theorem Yields.nodup_targets (h : Yields settings records result) (store : Store)
    (directory : Path) :
    (result.generated.map fun e => store.target (Path.join directory e.2.path)).Nodup := by
  have hplaces := h.nodup_places
  apply List.Nodup.map_on _ hplaces.of_map
  rintro ⟨name, file⟩ he ⟨name', file'⟩ he' htarget
  apply List.inj_on_of_nodup_map hplaces he he'
  have hforth := h.packageOf_eq_empty he he' htarget
  have hback := h.packageOf_eq_empty he' he htarget.symm
  have hinj : Function.Injective String.ofList := fun _ _ => String.ofList_injective
  dsimp only at htarget
  rw [h.target_of_mem he, h.target_of_mem he'] at htarget
  suffices hsame : packageOf name = packageOf name' ∧
      pascalCase (simpleNameOf name) = pascalCase (simpleNameOf name') from
    Prod.ext (congrArg settings.wrapperPackage hsame.1) hsame.2
  obtain hempty | hdotted := (h.path_eq_of_mem he).1.packageOf
  . refine ⟨hempty.trans (hforth hempty).symm, ?_⟩
    rw [hempty, hforth hempty] at htarget
    have hparts := List.map_injective_iff.mpr hinj (List.append_cancel_left htarget)
    have hstem := List.singleton_inj.mp (List.append_cancel_left hparts)
    exact String.toList_inj.mp (List.append_cancel_right hstem)
  . obtain hempty' | hdotted' := (h.path_eq_of_mem he').1.packageOf
    . have hne := hdotted.ne_nil
      rw [hback hempty'] at hne
      exact absurd rfl hne
    . rw [isAbsolute_wrapperPackage settings hdotted, isAbsolute_wrapperPackage settings hdotted',
        solid_directoryOf hdotted, solid_directoryOf hdotted'] at htarget
      have hparts := List.map_injective_iff.mpr hinj (List.append_cancel_left htarget)
      obtain ⟨hfront, hstem⟩ := List.append_inj' hparts (by simp only [List.length_singleton])
      have hpackage := eq_of_pieces_eq (List.append_cancel_right hfront)
      rw [List.singleton_inj] at hstem
      exact ⟨String.toList_inj.mp hpackage, String.toList_inj.mp (List.append_cancel_right hstem)⟩

end Batch

end Facade
