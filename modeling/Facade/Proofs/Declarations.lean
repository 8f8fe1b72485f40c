import Facade.Proofs.Delivery
import Facade.Proofs.Imports
import Facade.Proofs.Ownership

/-!
This module contains the proofs about the lines at the margin of a source. They alone tell which package
a wrapper is in and under which name it is declared, and other sources refer to it by just these.
-/

namespace Facade.Source.Fragment

mutual

theorem le_level_of_mem_lines {level : Nat} {l : Line} :
    ∀ {f : Fragment}, l ∈ f.lines level → level ≤ l.level
  | .line text, h => by
    rw [lines, List.mem_singleton] at h
    rw [h]
  | .blank, h => by
    rw [lines, List.mem_singleton] at h
    rw [h]
  | .block header body close, h => by
    rw [lines, List.mem_append, List.mem_cons, List.mem_map] at h
    obtain (rfl | h) | ⟨text, -, rfl⟩ := h
    . exact Nat.le_refl _
    . exact Nat.le_of_succ_le (le_level_of_mem_allLines h)
    . exact Nat.le_refl _
  | .indent body, h => by
    rw [lines] at h
    exact Nat.le_of_succ_le (le_level_of_mem_allLines h)
  | .doc texts, h => by
    rw [lines, List.mem_map] at h
    obtain ⟨text, -, rfl⟩ := h
    exact Nat.le_refl _

theorem le_level_of_mem_allLines {level : Nat} {l : Line} :
    ∀ {fs : List Fragment}, l ∈ allLines level fs → level ≤ l.level
  | [], h => by cases h
  | f :: fs, h => by
    rw [allLines, List.mem_append] at h
    obtain h | h := h
    . exact le_level_of_mem_lines h
    . exact le_level_of_mem_allLines h

end

/-- The texts of the lines that fragments have at the margin. -/
def margin (fragments : List Fragment) : List String :=
  ((allLines 0 fragments).filter (·.level == 0)).map Line.text

@[simp]
theorem margin_nil : margin [] = [] := rfl

theorem margin_append (fs fs' : List Fragment) : margin (fs ++ fs') = margin fs ++ margin fs' := by
  rw [margin, allLines_append, List.filter_append, List.map_append, margin, margin]

@[simp]
theorem margin_line (text : String) (fs : List Fragment) :
    margin (.line text :: fs) = text :: margin fs := rfl

@[simp]
theorem margin_blank (fs : List Fragment) : margin (.blank :: fs) = "" :: margin fs := rfl

theorem margin_lines (texts : List String) : margin (texts.map .line) = texts := by
  induction texts with
  | nil => rfl
  | cons text texts ih => rw [List.map_cons, margin_line, ih]

@[simp]
theorem margin_block (header : String) (body : List Fragment) (close : Option String)
    (fs : List Fragment) :
    margin (.block header body close :: fs) = header :: (close.toList ++ margin fs) := by
  have hbody : (allLines 1 body).filter (·.level == 0) = [] := by
    rw [List.filter_eq_nil_iff]
    intro l hl
    have := le_level_of_mem_allLines hl
    simp only [beq_iff_eq]
    omega
  have hlines : allLines 0 (.block header body close :: fs) =
      (⟨0, header⟩ :: allLines 1 body ++ close.toList.map (⟨0, ·⟩)) ++ allLines 0 fs := rfl
  rw [margin, hlines, List.cons_append, List.cons_append, List.filter_cons_of_pos rfl,
    List.filter_append, List.filter_append, hbody, List.nil_append]
  cases close <;> rfl

theorem margin_flatMap {α : Type} (f : α → List Fragment) (items : List α) :
    margin (items.flatMap f) = items.flatMap fun item => margin (f item) := by
  induction items with
  | nil => rfl
  | cons item items ih => rw [List.flatMap_cons, List.flatMap_cons, margin_append, ih]

end Facade.Source.Fragment

namespace Facade.Scala

open Data Files Host Outcome Source Text

def packageName? (line : String) : Option String :=
  (dropStart? "package ".toList line.toList).map String.ofList

def definitionStarts : List String :=
  ["final class ", "sealed abstract class ", "object "]

def nameBehind? (words line : String) : Option String :=
  (dropStart? words.toList line.toList).map fun rest =>
    String.ofList (rest.takeWhile fun c => c != '(' && c != ' ')

def definedName? (line : String) : Option String :=
  definitionStarts.findSome? (nameBehind? · line)

namespace SourceFile

/-- The packages that the clauses of a source set. -/
def packages (file : SourceFile) : List String :=
  (Fragment.margin file.fragments).filterMap packageName?

/-- The names of the classes and objects that a source defines outside of all others. -/
def defined (file : SourceFile) : List String :=
  (Fragment.margin file.fragments).filterMap definedName?

end SourceFile

section

variable {line : String} {c : Char}

theorem dropStart?_of_head_ne {words : String} (h : line.toList.head? = some c)
    (hc : words.toList.head?.any (· ≠ c) = true) : dropStart? words.toList line.toList = none := by
  cases hwords : words.toList with
  | nil =>
    rw [hwords] at hc
    cases hc
  | cons d rest =>
    rw [hwords, List.head?_cons, Option.any_some, decide_eq_true_iff] at hc
    apply dropStart?_of_head
    rw [h]
    exact fun heq => hc (Option.some.inj heq).symm

theorem packageName?_of_head (h : line.toList.head? = some c) (hc : c ≠ 'p') :
    packageName? line = none := by
  have hne : "package ".toList.head?.any (· ≠ c) = true := by simpa using hc.symm
  rw [packageName?, dropStart?_of_head_ne h hne, Option.map_none]

theorem definedName?_of_head (h : line.toList.head? = some c)
    (hc : ∀ words ∈ definitionStarts, words.toList.head?.any (· ≠ c) = true) :
    definedName? line = none := by
  rw [definedName?, List.findSome?_eq_none_iff]
  intro words hwords
  rw [nameBehind?, dropStart?_of_head_ne h (hc words hwords), Option.map_none]

end

@[simp]
theorem packageName?_clause (path : String) : packageName? ("package " ++ path) = some path := by
  rw [packageName?, String.toList_append, dropStart?_append, Option.map_some, String.ofList_toList]

theorem nameBehind?_append (words : String) {name rest : String} (hname : IsPathText name.toList)
    (hrest : rest.toList.head? = some '(' ∨ rest.toList.head? = some ' ') :
    nameBehind? words (words ++ name ++ rest) = some name := by
  have hcut : (name.toList ++ rest.toList).takeWhile (fun c => c != '(' && c != ' ') =
      name.toList := by
    rw [List.takeWhile_append_of_pos]
    . obtain ⟨rest', hrest'⟩ | ⟨rest', hrest'⟩ := hrest.imp List.head?_eq_some_iff.mp
        List.head?_eq_some_iff.mp <;> rw [hrest'] <;> simp
    . intro c hc
      have hopen : c ≠ '(' := fun heq => hname.not_mem (c := '(') (by decide) (heq ▸ hc)
      have hblank : c ≠ ' ' := fun heq => hname.not_mem (c := ' ') (by decide) (heq ▸ hc)
      simp [hopen, hblank]
  rw [nameBehind?, String.toList_append, String.toList_append, List.append_assoc, dropStart?_append,
    Option.map_some, hcut, String.ofList_toList]

theorem definedName?_append {words name rest : String} (hwords : words ∈ definitionStarts)
    (hname : IsPathText name.toList)
    (hrest : rest.toList.head? = some '(' ∨ rest.toList.head? = some ' ') :
    definedName? (words ++ name ++ rest) = some name := by
  have hbehind := nameBehind?_append words hname hrest
  have hother : ∀ (words' : String) (c : Char), words.toList.head? = some c →
      words'.toList.head?.any (· ≠ c) = true → nameBehind? words' (words ++ name ++ rest) = none := by
    intro words' c hc hne
    have hhead : (words ++ name ++ rest).toList.head? = some c := by simp [hc]
    rw [nameBehind?, dropStart?_of_head_ne hhead hne, Option.map_none]
  simp only [definitionStarts, List.mem_cons, List.not_mem_nil, or_false] at hwords
  simp only [definedName?, definitionStarts, List.findSome?_cons, List.findSome?_nil]
  obtain rfl | rfl | rfl := hwords
  . rw [hbehind]
  . rw [hother "final class " 's' rfl rfl, hbehind]
  . rw [hother "final class " 'o' rfl rfl, hother "sealed abstract class " 'o' rfl rfl, hbehind]

theorem margin_withMembers (header : String) (members : List (List Fragment)) :
    Fragment.margin (withMembers header members) =
      if members.all List.isEmpty then [header] else [header ++ " \x7b", "\x7d"] := by
  unfold withMembers
  split
  . rfl
  . rw [Fragment.braced, Fragment.margin_block]
    rfl

/-- A definition of a name: what stands before the name in its first line, what stands behind it, and
its members. -/
structure TopDefinition where
  start : String
  rest : String
  members : List (List Fragment)

namespace TopDefinition

def fragments (name : String) (d : TopDefinition) : List Fragment :=
  withMembers (d.start ++ name ++ d.rest) d.members

/-- Whether a definition starts as one, and something marks the end of its name. -/
structure IsProper (d : TopDefinition) : Prop where
  start : d.start ∈ definitionStarts
  ended : d.rest.toList.head? = some '(' ∨ d.rest = "" ∧ d.members.all List.isEmpty = false

variable {d : TopDefinition}

theorem IsProper.packages (h : d.IsProper) (name : String) :
    (Fragment.margin (d.fragments name)).filterMap packageName? = [] := by
  have hstarts : ∀ start ∈ definitionStarts, ∃ c, start.toList.head? = some c ∧ c ≠ 'p' := by
    simp [definitionStarts]
  obtain ⟨c, hc, hne⟩ := hstarts d.start h.start
  have hheader : packageName? (d.start ++ name ++ d.rest) = none :=
    packageName?_of_head (by simp [hc]) hne
  have hopened : packageName? (d.start ++ name ++ d.rest ++ " \x7b") = none :=
    packageName?_of_head (by simp [hc]) hne
  have hclose : packageName? "\x7d" = none := by decide
  rw [fragments, margin_withMembers]
  split
  . rw [List.filterMap_cons_none hheader, List.filterMap_nil]
  . rw [List.filterMap_cons_none hopened, List.filterMap_cons_none hclose, List.filterMap_nil]

theorem IsProper.defined (h : d.IsProper) {name : String} (hname : IsPathText name.toList) :
    (Fragment.margin (d.fragments name)).filterMap definedName? = [name] := by
  have hended := h.ended
  rw [fragments, margin_withMembers]
  split
  . next hempty =>
    rw [hempty, Bool.true_eq_false, and_false, or_false] at hended
    have hheader := definedName?_append h.start hname (.inl hended)
    rw [List.filterMap_cons_some hheader, List.filterMap_nil]
  . have hopened : (d.rest ++ " \x7b").toList.head? = some '(' ∨
        (d.rest ++ " \x7b").toList.head? = some ' ' := by
      obtain hrest | ⟨hrest, -⟩ := hended
      . exact .inl (by simp [hrest])
      . rw [hrest]
        exact .inr rfl
    have hheader := definedName?_append h.start hname hopened
    rw [← String.append_assoc] at hheader
    have hclose : definedName? "\x7d" = none := by decide
    rw [List.filterMap_cons_some hheader, List.filterMap_cons_none hclose, List.filterMap_nil]

end TopDefinition

namespace SourceFile

theorem margin_fragments (file : SourceFile) : Fragment.margin file.fragments =
    [generatedHeader] ++ file.origin.toList.map ("// Source: " ++ ·) ++
      (if file.package.isEmpty then [] else ["", "package " ++ escapePath file.package]) ++
      (if file.imports.isEmpty then []
        else "" :: file.imports.map fun (package, symbols) => importLine package symbols) ++
      file.body.flatMap fun group => "" :: Fragment.margin group := by
  simp only [fragments, Fragment.margin_append, Fragment.margin_flatMap, Fragment.margin_blank,
    Fragment.margin_line, Fragment.margin_nil]
  congr 3
  . cases file.origin <;> rfl
  . split <;> rfl
  . split
    . rfl
    . rw [Fragment.margin_blank, ← Fragment.margin_lines (file.imports.map _), List.map_map]
      rfl

/-- What is read from the margin of a source, if nothing is read from comments and imports. -/
theorem filterMap_margin {read : String → Option String} (hblank : read "" = none)
    (hother : ∀ (line : String) (c : Char), line.toList.head? = some c → c = '/' ∨ c = 'i' →
      read line = none) (file : SourceFile) :
    (Fragment.margin file.fragments).filterMap read =
      (if file.package.isEmpty then [] else (read ("package " ++ escapePath file.package)).toList) ++
        file.body.flatMap fun group => (Fragment.margin group).filterMap read := by
  have hheader : read generatedHeader = none := hother _ '/' rfl (.inl rfl)
  have horigin : (file.origin.toList.map ("// Source: " ++ ·)).filterMap read = [] := by
    rw [List.filterMap_eq_nil_iff, List.forall_mem_map]
    exact fun className _ => hother _ '/' (by simp) (.inl rfl)
  have himports : (if file.imports.isEmpty then []
      else "" :: file.imports.map fun (package, symbols) => importLine package symbols).filterMap
        read = [] := by
    rw [List.filterMap_eq_nil_iff]
    split
    . exact nofun
    . rw [List.forall_mem_cons, List.forall_mem_map]
      refine ⟨hblank, ?_⟩
      rintro ⟨package, symbols⟩ _
      obtain ⟨rest, hrest⟩ := Outline.import_prefix_importLine package symbols
      exact hother _ 'i' (by rw [← hrest]; rfl) (.inr rfl)
  -- no other line of the head can be read: comments start with '/' and imports with 'i'
  have hpackage : (if file.package.isEmpty then []
      else ["", "package " ++ escapePath file.package]).filterMap read =
        if file.package.isEmpty then []
        else (read ("package " ++ escapePath file.package)).toList := by
    split
    . rfl
    . rw [List.filterMap_cons_none hblank]
      cases hclause : read ("package " ++ escapePath file.package) with
      | none => rw [List.filterMap_cons_none hclause, List.filterMap_nil, Option.toList_none]
      | some path => rw [List.filterMap_cons_some hclause, List.filterMap_nil, Option.toList_some]
  rw [margin_fragments, List.filterMap_append, List.filterMap_append, List.filterMap_append,
    List.filterMap_append, List.filterMap_cons_none hheader, horigin, hpackage, himports,
    List.filterMap_nil, List.nil_append, List.nil_append, List.append_nil, List.filterMap_flatMap]
  congr 2
  funext group
  rw [List.filterMap_cons_none hblank]

end SourceFile

namespace Outline

def definitions (o : Outline) : List TopDefinition :=
  match o.body with
  | .enumeration constants =>
    [⟨"sealed abstract class ", paramList (EnumWrapper.wrapper o).params, []⟩,
      ⟨"object ", "", (EnumWrapper.companion o constants).members⟩]
  | .members constructors getters setters =>
    let wrapper := ClassWrapper.classDef o constructors getters setters
    [⟨"final class ", paramList wrapper.params, wrapper.members⟩]

theorem head?_paramList (params : List Param) : (paramList params).toList.head? = some '(' := by
  simp [paramList]

theorem isProper_of_mem_definitions {o : Outline} {d : TopDefinition} (h : d ∈ o.definitions) :
    d.IsProper := by
  unfold definitions at h
  split at h
  . obtain rfl | h := List.mem_cons.mp h
    . exact ⟨by simp [definitionStarts], .inl (head?_paramList _)⟩
    . rw [List.mem_singleton.mp h]
      exact ⟨by simp [definitionStarts], .inr ⟨rfl, by simp [EnumWrapper.companion]⟩⟩
  . rw [List.mem_singleton.mp h]
    exact ⟨by simp [definitionStarts], .inl (head?_paramList _)⟩

theorem body_sourceFile (o : Outline) :
    o.sourceFile.body = o.definitions.map (TopDefinition.fragments o.name) := by
  cases hbody : o.body with
  | enumeration constants =>
    have hwrapper : (EnumWrapper.wrapper o).header =
        "sealed abstract class " ++ o.name ++ paramList (EnumWrapper.wrapper o).params := by
      rw [ClassDef.header]
      rfl
    -- the companion has no parameters to list
    have hcompanion : (EnumWrapper.companion o constants).header = "object " ++ o.name ++ "" := by
      rw [ObjectDef.header]
      rfl
    rw [sourceFile, definitions, hbody, List.map_cons, List.map_singleton, TopDefinition.fragments,
      TopDefinition.fragments, ← hwrapper, ← hcompanion]
    rfl
  | members constructors getters setters =>
    have hwrapper : (ClassWrapper.classDef o constructors getters setters).header =
        "final class " ++ o.name ++
          paramList (ClassWrapper.classDef o constructors getters setters).params := by
      rw [ClassDef.header]
      rfl
    rw [sourceFile, definitions, hbody, List.map_singleton, TopDefinition.fragments, ← hwrapper]
    exact ClassWrapper.body_sourceFile o constructors getters setters

theorem packages_sourceFile (o : Outline) : o.sourceFile.packages =
    if o.package.isEmpty then [] else [escapePath o.package] := by
  have hpackage : o.sourceFile.package = o.package := by
    unfold sourceFile
    split <;> rfl
  have hbody : (o.sourceFile.body.flatMap fun group =>
      (Fragment.margin group).filterMap packageName?) = [] := by
    rw [body_sourceFile, List.flatMap_map, List.flatMap_eq_nil_iff]
    exact fun d hd => (isProper_of_mem_definitions hd).packages o.name
  rw [SourceFile.packages, SourceFile.filterMap_margin, hbody, List.append_nil, hpackage,
    packageName?_clause, Option.toList_some]
  . rfl
  . rintro line c hline (rfl | rfl)
    . exact packageName?_of_head hline (by decide)
    . exact packageName?_of_head hline (by decide)

theorem defined_sourceFile {o : Outline} (hname : IsPathText o.name.toList) :
    o.sourceFile.defined = o.definitions.map fun _ => o.name := by
  have hclause : definedName? ("package " ++ escapePath o.sourceFile.package) = none :=
    definedName?_of_head (c := 'p') (by simp) (by decide)
  rw [SourceFile.defined, SourceFile.filterMap_margin, hclause, Option.toList_none, ite_self,
    List.nil_append, body_sourceFile, List.flatMap_map, List.map_eq_flatMap]
  . apply List.flatMap_congr
    exact fun d hd => (isProper_of_mem_definitions hd).defined hname
  . decide
  . rintro line c hline (rfl | rfl)
    . exact definedName?_of_head hline (by decide)
    . exact definedName?_of_head hline (by decide)

end Outline

end Facade.Scala

namespace Facade

open Data Host Outcome Scala

theorem Catalog.exists_of_get?_ofClasses {settings : Settings} {classes : List HostClass}
    {name : String} {entry : Entry} (h : (ofClasses settings classes).1.get? name = some entry) :
    ∃ c : HostClass, c.name = name ∧ Entry.ofClass settings c = entry := by
  obtain ⟨verdicts, draft, -, hfollows, heq⟩ := exists_verdicts settings classes
  rw [heq] at h
  obtain ⟨c, -, heq⟩ := List.mem_map.mp (hfollows.entries.mem_iff.mp (Dictionary.mem_of_get? h))
  exact ⟨c, congrArg Prod.fst heq, congrArg Prod.snd heq⟩

theorem Settings.isEmpty_wrapperPackage {text : String} {settings : Settings}
    (hparse : parse text = .ok settings) (package : String) :
    (settings.wrapperPackage package).isEmpty = false := by
  have hsuffix : settings.generator.packageSuffix.toList ≠ [] :=
    (isDotted_packageSuffix hparse).ne_nil
  rw [Bool.eq_false_iff, ne_eq, String.isEmpty_iff, ← String.toList_eq_nil_iff, wrapperPackage]
  split
  . exact hsuffix
  . simp

namespace Scala

/-- A wrapper is declared under the name by which others refer to it. The source of an accepted class has
one clause, for its package, and defines one name: sources of the same package refer to the wrapper by
this name, whether as one of a class or of an enumeration, and others by the root, the path of the clause
and the name. The conversion of names changes no name that it has been applied to. -/
theorem declared_as_referred {text : String} {settings : Settings}
    (hparse : Settings.parse text = .ok settings) (classes : List HostClass) {catalog : Catalog}
    {host : HostClass} {entry : Catalog.Entry} {o : Outline}
    (hregistered : (Catalog.ofClasses settings classes).1.get? host.name = some entry)
    (hkept : catalog.get? host.name = some entry) (houtline : Outline.ofClass catalog host = .ok o) :
    (∃ path, o.sourceFile.packages = [path] ∧ ∀ isEnum package,
      (wrapperType { entry with isEnum } package).render =
        if package = entry.package then o.name else "_root_." ++ path ++ "." ++ o.name) ∧
    o.sourceFile.defined ≠ [] ∧ (∀ name ∈ o.sourceFile.defined, name = o.name) ∧
    ∀ name, pascalCase (pascalCase name) = pascalCase name := by
  obtain ⟨c, -, rfl⟩ := Catalog.exists_of_get?_ofClasses hregistered
  obtain ⟨entry, name, hentry, hname, -, ho⟩ := Outline.ofClass_cases houtline
  rw [hkept] at hentry
  cases hentry
  -- the name in the catalog is one that the conversion does not change
  have hsafe : safeName? (pascalCase c.simpleName) = some o.name := by
    rw [Catalog.Entry.ofClass, pascalCase_pascalCase] at hname
    rw [hname, ho]
  have hpackage : o.package = settings.wrapperPackage c.package := by
    rw [ho]
    rfl
  have hdefined := Outline.defined_sourceFile (isPathText_of_safeName? hsafe)
  refine ⟨⟨escapePath o.package, ?_, ?_⟩, ?_, ?_, pascalCase_pascalCase⟩
  . rw [Outline.packages_sourceFile, hpackage, Settings.isEmpty_wrapperPackage hparse,
      if_neg Bool.false_ne_true]
  . intro isEnum package
    rw [render_wrapperType, reference, hpackage]
    simp only [Catalog.Entry.ofClass, hsafe, Option.getD_some, eq_comm (b := package)]
    rfl
  . rw [hdefined]
    unfold Outline.definitions
    split <;> simp
  . rw [hdefined]
    rintro name hmem
    obtain ⟨d, -, rfl⟩ := List.mem_map.mp hmem
    rfl

/-- A nested class in a package with a reserved name. The upper case of its first letter is two letters. -/
def saleClass : HostClass := .plain "p.type.ßale$kind"

def saleCatalog : Catalog :=
  (Catalog.ofClasses Batch.nestedSettings [saleClass, .enumeration "p.Level" ["LOW"]]).1

theorem declared_as_referred_sale :
    Settings.parse Batch.nestedText = .ok Batch.nestedSettings ∧
    ∃ entry o, saleCatalog.get? saleClass.name = some entry ∧
      Outline.ofClass (saleCatalog.erase "p.Level") saleClass = .ok o ∧ o.name = "SSaleKind" ∧
      o.sourceFile.packages = ["p.`type`.api.view"] ∧
      (∀ name ∈ o.sourceFile.defined, name = "SSaleKind") ∧
      (wrapperType entry "p.type.api.view").render = "SSaleKind" ∧
      (wrapperType entry "q").render = "_root_.p.`type`.api.view.SSaleKind" := by
  have hentry : saleCatalog.get? saleClass.name =
      some ⟨"p.type.ßale$kind", "p.type.api.view", "SSaleKind", false⟩ := rfl
  have hkept : (saleCatalog.erase "p.Level").get? saleClass.name =
      some ⟨"p.type.ßale$kind", "p.type.api.view", "SSaleKind", false⟩ := rfl
  have houtline : (Outline.ofClass (saleCatalog.erase "p.Level") saleClass).map
      (fun o => (o.name, o.sourceFile.packages)) = .ok ("SSaleKind", ["p.`type`.api.view"]) := by
    rfl
  obtain ⟨o, ho, heq⟩ := map_eq_ok_iff.mp houtline
  obtain ⟨hname, hpackages⟩ := Prod.mk.inj heq
  obtain ⟨⟨path, hpath, hrender⟩, -, hdefined, -⟩ :=
    declared_as_referred Batch.parse_nestedText _ hentry hkept ho
  cases hpackages.symm.trans hpath
  rw [hname] at hdefined hrender
  exact ⟨Batch.parse_nestedText, _, o, hentry, ho, hname, hpackages, hdefined, hrender false _,
    hrender false _⟩

end Scala

end Facade
