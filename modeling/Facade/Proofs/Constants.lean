import Facade.Proofs.Delivery
import Facade.Proofs.References
import Facade.Proofs.Source.Lines

/-!
This module contains the proofs about the wrappers of enumerations: what is read back from the
source of such a wrapper are the constants of the enumeration, each with its own name.
-/

namespace Facade

open Text Host Outcome Source

namespace Scala

theorem NamePool.claim_cases {pool pool' : NamePool} {base safe : String}
    (h : pool.claim base = .ok (safe, pool')) :
    ∃ name, name ∉ pool.taken ∧ safeName? name = some safe ∧ pool' = pool.reserve [name] := by
  unfold claim at h
  split at h
  . cases h
  . split at h
    . next name safe' hfree =>
      cases h
      obtain ⟨variant, -, hsafe⟩ := List.exists_of_findSome?_eq_some hfree
      split at hsafe
      . cases hsafe
      . next htaken =>
        obtain ⟨_, hsafe, heq⟩ := Option.map_eq_some_iff.mp hsafe
        cases heq
        exact ⟨name, by simpa using htaken, hsafe, rfl⟩
    . cases h

theorem Outline.named_of_constants {pool : NamePool} {hosts : List String} {cs : List Constant}
    (h : constants pool hosts = .ok cs) :
    cs.map Constant.host = hosts ∧ ∃ names : List String, names.Nodup ∧
      (∀ name ∈ names, name ∉ pool.taken) ∧
      List.Forall₂ (fun name (c : Constant) => safeName? name = some c.name) names cs := by
  obtain ⟨last, hthreads⟩ := threads_constants h
  clear h
  induction hthreads with
  | nil => exact ⟨rfl, [], .nil, nofun, .nil⟩
  | cons hfirst _ ih =>
    obtain ⟨hhost, hclaim⟩ := hfirst
    obtain ⟨name, hfree, hsafe, rfl⟩ := NamePool.claim_cases (claim_of_claimName hclaim)
    obtain ⟨hhosts, names, hnodup, htaken, hnames⟩ := ih
    -- the names behind it are given out with this one taken
    simp only [NamePool.reserve, List.mem_append, List.mem_singleton, not_or] at htaken
    refine ⟨by rw [List.map_cons, hhost, hhosts], name :: names, ?_, ?_, .cons hsafe hnames⟩
    . rw [List.nodup_cons]
      exact ⟨fun hmem => (htaken name hmem).1 rfl, hnodup⟩
    . rw [List.forall_mem_cons]
      exact ⟨hfree, fun other hother => (htaken other hother).2⟩

namespace EnumWrapper

open Outline

/-- A constant as a source refers to it: its name, and the class and the constant of the host. -/
structure Link where
  name : String
  host : String
  constant : String
  deriving DecidableEq, Repr

/-- What the source of the wrapper of an enumeration says about its constants. -/
structure Listing where
  /-- The objects that are defined. -/
  objects : List Link
  /-- The elements of the list of all constants. -/
  values : List String
  /-- The cases of the function from the constants of the host. -/
  cases : List Link
  deriving DecidableEq, Repr

def readName (text : List Char) : String :=
  String.ofList (text.filter (· != '`'))

def readLink? (name reference : List Char) : Option Link :=
  (cutLast? '.' reference).map fun (host, constant) =>
    ⟨readName name, String.ofList host, readName constant⟩

/-- Reads the object for a constant, such as `ON extends Kind(_root_.p.Kind.ON)`. -/
def readObject? (text : List Char) : Option Link := do
  let (name, rest) ← cutFirst? ' ' text
  let parent ← dropStart? "extends ".toList rest
  let (_, argument) ← cutFirst? '(' parent
  let (reference, rest) ← cutFirst? ')' argument
  if rest.isEmpty then readLink? name reference else none

/-- Reads a case, such as `_root_.p.Kind.ON => ON`. -/
def readCase? (text : List Char) : Option Link := do
  let (reference, rest) ← cutFirst? ' ' text
  readLink? (← dropStart? "=> ".toList rest) reference

/-- Reads the list of all constants, such as `List[Kind] = List(ON, OFF)`. -/
def readValues? (text : List Char) : Option (List String) := do
  let (_, arguments) ← cutFirst? '(' text
  let (elements, rest) ← cutFirst? ')' arguments
  if !rest.isEmpty then none
  else if elements.isEmpty then return []
  else return (pieces (· == ',') (elements.filter (· != ' '))).map readName

def objectOf? (line : List Char) : Option (List Char) :=
  dropStart? "case object ".toList line

def caseOf? (line : List Char) : Option (List Char) :=
  if (objectOf? line).isSome then none else dropStart? "case ".toList line

def valuesOf? (line : List Char) : Option (List Char) :=
  dropStart? "val values: ".toList line

/-- Reads all that a source says about constants. Lines that look like it have to be readable. -/
def read? (source : String) : Option Listing := do
  let lines := codeLines source
  let objects ← (lines.filterMap objectOf?).mapM readObject?
  let cases ← (lines.filterMap caseOf?).mapM readCase?
  match lines.filterMap valuesOf? with
  | [line] => return { objects, values := ← readValues? line, cases }
  | _ => none

def objectText (name host : String) (c : Constant) : String :=
  (constantDef name host c).header

def valuesText (name : String) (constants : List Constant) : String :=
  "val values: List[" ++ name ++ "] = List(" ++
    ", ".intercalate (constants.map Constant.name) ++ ")"

def caseText (host : String) (c : Constant) : String :=
  "case " ++ hostConstant host c ++ " => " ++ c.name

/-- Whether a line can be no object, case or list. -/
def isOther (text : String) : Bool :=
  !text.toList.contains '\n' && !([some ' ', some 'c', some 'v'].contains text.toList.head?)

theorem isOther_append {front back : String} (hfront : isOther front = true)
    (hne : front.toList ≠ []) (hback : '\n' ∉ back.toList) : isOther (front ++ back) = true := by
  have hhead : (front ++ back).toList.head? = front.toList.head? := by
    rw [String.toList_append, List.head?_append_of_ne_nil _ hne]
  rw [isOther, Bool.and_eq_true] at hfront ⊢
  rw [hhead]
  refine ⟨?_, hfront.2⟩
  simpa [hback] using hfront.1

theorem fragments_constantDefs (name host : String) (cs : List Constant) :
    (cs.flatMap fun c => (constantDef name host c).fragments) =
      cs.map fun c => Fragment.line (objectText name host c) := by
  induction cs with
  | nil => rfl
  | cons c cs ih =>
    rw [List.flatMap_cons, ih, List.map_cons]
    rfl

theorem signature_fromHostDef (name host : String) (cs : List Constant) :
    (fromHostDef name host cs).signature =
      "def " ++ ("fromJava" ++ (paramList [{ name := "value", type := host }] ++
        (": " ++ name ++ " ="))) := by
  have hsignature : ∀ body : List Fragment,
      ({ name := "fromJava", params := some [{ name := "value", type := host }],
         returns := some name, body } : Def).signature =
        "def " ++ ("fromJava" ++ (paramList [{ name := "value", type := host }] ++
          (": " ++ name ++ " ="))) := by
    intro body
    simp only [Def.signature, Bool.false_eq_true, if_false, String.empty_append,
      String.append_assoc]
  unfold fromHostDef
  dsimp only
  split
  . exact hsignature _
  . exact hsignature _

theorem break_not_mem_paramList {p : Param} (hname : '\n' ∉ p.name.toList)
    (htype : '\n' ∉ p.type.toList) : '\n' ∉ (paramList [p]).toList := by
  have hval : '\n' ∉ (if p.isVal then "val " else "").toList := by split <;> decide
  simp only [paramList, Param.render, List.map_singleton, String.toList_append,
    String.toList_intercalate, List.intercalate_singleton, List.mem_append, not_or]
  exact ⟨⟨by decide, ⟨⟨hval, hname⟩, by decide⟩, htype⟩, by decide⟩

theorem isOther_signature {name host : String} (hname : '\n' ∉ name.toList)
    (hhost : '\n' ∉ host.toList) (cs : List Constant) {rest : String} (hrest : '\n' ∉ rest.toList) :
    isOther ((fromHostDef name host cs).signature ++ rest) = true := by
  have hvalue : '\n' ∉ "value".toList := by decide
  have hparams := break_not_mem_paramList (p := { name := "value", type := host }) hvalue hhost
  rw [signature_fromHostDef, String.append_assoc]
  refine isOther_append ?_ ?_ ?_
  . decide
  . decide
  . simp only [String.toList_append, List.mem_append, not_or]
    exact ⟨⟨by decide, hparams, ⟨by decide, hname⟩, by decide⟩, hrest⟩

theorem allLines_fromHostDef {name host : String} (hname : '\n' ∉ name.toList)
    (hhost : '\n' ∉ host.toList) (cs : List Constant) :
    ∃ front back : List Line,
      Fragment.allLines 1 (fromHostDef name host cs).fragments =
        front ++ cs.map (fun c => ⟨2, caseText host c⟩) ++ back ∧
      ∀ l ∈ front ++ back, isOther l.text = true := by
  have hsignature : ∀ {rest : String}, '\n' ∉ rest.toList →
      isOther ((fromHostDef name host cs).signature ++ rest) = true :=
    isOther_signature hname hhost cs
  cases cs with
  | nil =>
    -- without constants there is no match, and the body may stand on the line of the signature
    have hcode : (fromHostDef name host []).fragments =
        if (fromHostDef name host []).signature.utf8ByteSize +
            "throw new MatchError(value)".utf8ByteSize < Def.inlineWidth then
          [.line ((fromHostDef name host []).signature ++ " " ++ "throw new MatchError(value)")]
        else [.line (fromHostDef name host []).signature,
          .indent [.line "throw new MatchError(value)"]] := rfl
    rw [hcode]
    split
    . refine ⟨[_], [], rfl, ?_⟩
      rw [List.append_nil, List.forall_mem_singleton, String.append_assoc]
      exact hsignature (by decide)
    . refine ⟨[_, _], [], rfl, ?_⟩
      rw [List.append_nil, List.forall_mem_cons, List.forall_mem_singleton]
      refine ⟨?_, by decide⟩
      rw [← String.append_empty (s := (fromHostDef name host []).signature)]
      exact hsignature (by decide)
  | cons c cs =>
    have hcode : (fromHostDef name host (c :: cs)).fragments =
        [.block ((fromHostDef name host (c :: cs)).signature ++ " " ++
            ("value" ++ " match" ++ " \x7b"))
          (((c :: cs).map fun c => ⟨hostConstant host c, [c.name]⟩).map Case.fragment)
          (some "\x7d")] := rfl
    have hcases : ((c :: cs).map fun c => ⟨hostConstant host c, [c.name]⟩).map Case.fragment =
        (c :: cs).map fun c => .line (caseText host c) := List.map_map
    refine ⟨[⟨1, (fromHostDef name host (c :: cs)).signature ++ " " ++
      ("value" ++ " match" ++ " \x7b")⟩], [⟨1, "\x7d"⟩], ?_, ?_⟩
    . rw [hcode, hcases, Fragment.allLines_cons, Fragment.lines, Fragment.allLines_map_line,
        Fragment.allLines_nil, List.append_nil]
      rfl
    . rw [List.forall_mem_append, List.forall_mem_singleton, List.forall_mem_singleton]
      refine ⟨?_, by decide⟩
      rw [String.append_assoc]
      exact hsignature (by decide)

theorem exists_separated (first last : List Fragment) (single : Fragment) :
    ∃ gap gap' : List Fragment,
      separated [first, [single], last] = first ++ gap ++ [single] ++ gap' ++ last ∧
        ∀ f ∈ gap ++ gap', f = .blank := by
  cases first with
  | nil =>
    cases last with
    | nil => exact ⟨[], [], rfl, nofun⟩
    | cons l last => exact ⟨[], [.blank], by simp [separated, List.intercalate], by simp⟩
  | cons f first =>
    cases last with
    | nil => exact ⟨[.blank], [], by simp [separated, List.intercalate], by simp⟩
    | cons l last => exact ⟨[.blank], [.blank], by simp [separated, List.intercalate], by simp⟩

theorem isOther_of_blank {fs : List Fragment} (h : ∀ f ∈ fs, f = .blank) (level : Nat) :
    ∀ l ∈ Fragment.allLines level fs, isOther l.text = true := by
  induction fs with
  | nil => nofun
  | cons f fs ih =>
    rw [List.forall_mem_cons] at h
    rw [Fragment.allLines_cons, h.1, Fragment.lines, List.singleton_append, List.forall_mem_cons]
    exact ⟨rfl, ih h.2⟩

def companion (o : Outline) (cs : List Constant) : ObjectDef :=
  {
    name := o.name
    members := [
      cs.flatMap fun c => (constantDef o.name (hostReference o.className) c).fragments,
      [valuesFragment o.name cs],
      (fromHostDef o.name (hostReference o.className) cs).fragments
    ]
  }

def wrapper (o : Outline) : ClassDef :=
  {
    name := o.name
    modifiers := ["sealed abstract"]
    params := [{ name := "toJava", type := hostReference o.className, isVal := true }]
  }

theorem isOther_wrapper {o : Outline} (hname : '\n' ∉ o.name.toList)
    (hhost : '\n' ∉ (hostReference o.className).toList) :
    isOther (wrapper o).header = true := by
  have htoJava : '\n' ∉ "toJava".toList := by decide
  have hparams := break_not_mem_paramList
    (p := { name := "toJava", type := hostReference o.className, isVal := true }) htoJava hhost
  have hheader : (wrapper o).header = String.join ["sealed abstract" ++ " "] ++
      ("class " ++ (o.name ++
        paramList [{ name := "toJava", type := hostReference o.className, isVal := true }])) := by
    simp only [wrapper, ClassDef.header, List.map_cons, List.map_nil, String.append_assoc]
  rw [hheader]
  refine isOther_append ?_ ?_ ?_
  . decide
  . decide
  . simp only [String.toList_append, List.mem_append, not_or]
    exact ⟨by decide, hname, hparams⟩

theorem isOther_companion {o : Outline} (hname : '\n' ∉ o.name.toList) (cs : List Constant) :
    isOther ((companion o cs).header ++ " \x7b") = true := by
  have hheader : (companion o cs).header ++ " \x7b" =
      "object " ++ (o.name ++ ("" ++ " \x7b")) := by
    simp only [companion, ObjectDef.header, Bool.false_eq_true, if_false, String.empty_append,
      String.append_assoc]
  rw [hheader]
  refine isOther_append ?_ ?_ ?_
  . decide
  . decide
  . simp only [String.toList_append, List.mem_append, not_or]
    exact ⟨hname, by decide, by decide⟩

theorem fragments_sourceFile (o : Outline) (cs : List Constant) :
    (sourceFile o cs).fragments =
      [.line generatedHeader, .line ("// Source: " ++ o.className)] ++
        (if o.package.isEmpty then [] else [.blank, .line ("package " ++ escapePath o.package)]) ++
        [.blank, .line (wrapper o).header, .blank,
          .braced (companion o cs).header (separated (companion o cs).members)] := by
  have hmembers : (companion o cs).members.all List.isEmpty = false := by simp [companion]
  have hcompanion : (companion o cs).fragments =
      [.braced (companion o cs).header (separated (companion o cs).members)] := by
    rw [ObjectDef.fragments, withMembers, hmembers]
    rfl
  have hbody : (sourceFile o cs).body = [[.line (wrapper o).header], (companion o cs).fragments] :=
    rfl
  rw [SourceFile.fragments, hbody, hcompanion]
  simp [sourceFile]

/-- The source of the wrapper of an enumeration has a line for the object of each constant, one for
the list of all constants, and a line for the case of each constant. The other lines look like none
of them. -/
theorem exists_allLines {o : Outline} (hclass : '\n' ∉ o.className.toList)
    (hpackage : '\n' ∉ (escapePath o.package).toList) (hname : '\n' ∉ o.name.toList)
    (hhost : '\n' ∉ (hostReference o.className).toList) (cs : List Constant) :
    ∃ front gap middle back : List Line,
      Fragment.allLines 0 (sourceFile o cs).fragments =
        front ++ cs.map (fun c => ⟨1, objectText o.name (hostReference o.className) c⟩) ++
          gap ++ [⟨1, valuesText o.name cs⟩] ++
          middle ++ cs.map (fun c => ⟨2, caseText (hostReference o.className) c⟩) ++ back ∧
      ∀ l ∈ front ++ gap ++ middle ++ back, isOther l.text = true := by
  obtain ⟨start, rest, hfromHost, hother⟩ := allLines_fromHostDef hname hhost cs
  -- the only unknown lines of the members are the blank ones between them
  obtain ⟨gap, gap', hseparated, hblank⟩ := exists_separated
    (cs.map fun c => .line (objectText o.name (hostReference o.className) c))
    (fromHostDef o.name (hostReference o.className) cs).fragments (valuesFragment o.name cs)
  rw [List.forall_mem_append] at hother hblank
  have hmembers : separated (companion o cs).members =
      cs.map (fun c => .line (objectText o.name (hostReference o.className) c)) ++ gap ++
        [.line (valuesText o.name cs)] ++ gap' ++
        (fromHostDef o.name (hostReference o.className) cs).fragments := by
    rw [companion, fragments_constantDefs, hseparated]
    rfl
  refine ⟨[⟨0, generatedHeader⟩, ⟨0, "// Source: " ++ o.className⟩] ++
      Fragment.allLines 0 (if o.package.isEmpty then []
        else [.blank, .line ("package " ++ escapePath o.package)]) ++
      [⟨0, ""⟩, ⟨0, (wrapper o).header⟩, ⟨0, ""⟩, ⟨0, (companion o cs).header ++ " \x7b"⟩],
    Fragment.allLines 1 gap, Fragment.allLines 1 gap' ++ start, rest ++ [⟨0, "\x7d"⟩], ?_, ?_⟩
  . rw [fragments_sourceFile, hmembers]
    simp only [Fragment.allLines_append, Fragment.allLines_cons, Fragment.allLines_nil, Fragment.lines,
      Fragment.braced, Fragment.allLines_map_line, hfromHost, List.append_assoc]
    simp
  . simp only [List.forall_mem_append, List.forall_mem_cons]
    refine ⟨⟨⟨⟨⟨⟨?_, ?_, nofun⟩, ?_⟩, ?_, ?_, ?_, ?_, nofun⟩, isOther_of_blank hblank.1 1⟩,
      isOther_of_blank hblank.2 1, hother.1⟩, hother.2, ?_, nofun⟩
    . decide
    . exact isOther_append (by decide) (by decide) hclass
    . split
      . nofun
      . have hlines : Fragment.allLines 0 [.blank, .line ("package " ++ escapePath o.package)] =
            [⟨0, ""⟩, ⟨0, "package " ++ escapePath o.package⟩] := rfl
        rw [hlines, List.forall_mem_cons, List.forall_mem_singleton]
        exact ⟨by decide, isOther_append (by decide) (by decide) hpackage⟩
    . decide
    . exact isOther_wrapper hname hhost
    . decide
    . exact isOther_companion hname cs
    . decide

theorem filter_tick {word : List Char} (h : '`' ∉ word) : word.filter (· != '`') = word := by
  rw [List.filter_eq_self]
  intro c hc
  rw [bne_iff_ne]
  rintro rfl
  exact h hc

theorem readName_segment {word : List Char} (h : Record.isIdentifier word = true) :
    readName (segment word) = String.ofList word := by
  have hword := filter_tick (Record.not_mem_identifier h (by decide))
  unfold readName segment
  split
  . rw [List.cons_append, List.filter_cons_of_neg (by decide), List.filter_append, hword]
    simp
  . rw [hword]

theorem readName_of_safeName? {name safe : String} (h : safeName? name = some safe) :
    readName safe.toList = name := by
  obtain ⟨hreserved, rfl⟩ | ⟨-, hidentifier, rfl⟩ := safeName?_cases h
  . have hwords : ∀ word ∈ reservedWords, readName (escaped word).toList = word := by
      decide
    exact hwords name (by simpa [isReserved] using hreserved)
  . have hname := hostIdentifier_of_isIdentifier hidentifier
    rw [readName, filter_tick (Record.not_mem_identifier hname (by decide)), String.ofList_toList]

section

variable {host : String} {c : Constant}

theorem readLink?_hostConstant (hconstant : Record.isIdentifier c.host.toList = true)
    (name : List Char) :
    readLink? name (hostConstant host c).toList = some ⟨readName name, host, c.host⟩ := by
  have hdot : '.' ∉ c.host.toList := Record.not_mem_identifier hconstant (by decide)
  have hsegment : '.' ∉ segment c.host.toList := by
    unfold segment
    split
    . simpa using hdot
    . exact hdot
  have hreference : (hostConstant host c).toList = host.toList ++ '.' :: segment c.host.toList := by
    simp [hostConstant, escapePath_of_not_mem hdot]
  rw [readLink?, hreference, cutLast?_append hsegment, Option.map_some]
  dsimp only
  rw [readName_segment hconstant, String.ofList_toList, String.ofList_toList]

theorem toList_objectText (name host : String) (c : Constant) :
    (objectText name host c).toList = "case object ".toList ++ (c.name.toList ++
      ' ' :: ("extends ".toList ++ (name.toList ++ '(' ::
        ((hostConstant host c).toList ++ ')' :: [])))) := by
  simp [objectText, constantDef, ObjectDef.header]

theorem head?_objectText (name host : String) (c : Constant) :
    (objectText name host c).toList.head? = some 'c' := by
  have hstart : "case object ".toList.head? = some 'c' := by decide
  rw [toList_objectText, List.head?_append, hstart, Option.some_or]

theorem toList_caseText (host : String) (c : Constant) :
    (caseText host c).toList = "case ".toList ++ ((hostConstant host c).toList ++
      ' ' :: ("=> ".toList ++ c.name.toList)) := by
  simp [caseText]

theorem head?_caseText (host : String) (c : Constant) :
    (caseText host c).toList.head? = some 'c' := by
  have hstart : "case ".toList.head? = some 'c' := by decide
  rw [toList_caseText, List.head?_append, hstart, Option.some_or]

theorem toList_valuesText (name : String) (cs : List Constant) :
    (valuesText name cs).toList = "val values: ".toList ++
      (("List[".toList ++ name.toList ++ "] = List".toList) ++ '(' ::
        ([',', ' '].intercalate (cs.map fun c => c.name.toList) ++ ')' :: [])) := by
  have hstart : "val values: List[".toList = "val values: ".toList ++ "List[".toList := by decide
  have hmiddle : "] = List(".toList = "] = List".toList ++ ['('] := by decide
  have hsep : ", ".toList = [',', ' '] := by decide
  have hend : ")".toList = [')'] := by decide
  have hnames : (cs.map Constant.name).map String.toList = cs.map fun c => c.name.toList :=
    List.map_map
  delta valuesText
  simp only [String.toList_append, String.toList_intercalate, hstart, hmiddle, hsep, hend, hnames,
    List.append_assoc, List.cons_append, List.nil_append]

theorem readObject?_of_objectText {name : String} (hname : ' ' ∉ c.name.toList)
    (hparent : '(' ∉ name.toList) (hhost : ')' ∉ (hostConstant host c).toList) :
    ∃ text, objectOf? (objectText name host c).toList = some text ∧
      readObject? text = readLink? c.name.toList (hostConstant host c).toList := by
  rw [toList_objectText]
  refine ⟨_, dropStart?_append _ _, ?_⟩
  simp only [readObject?, cutFirst?_append hname, dropStart?_append, cutFirst?_append hparent,
    cutFirst?_append hhost, Option.bind_eq_bind, Option.bind_some, List.isEmpty_nil, if_true]

theorem objectOf?_caseText (hroot : (hostConstant host c).toList.head? = some '_') :
    objectOf? (caseText host c).toList = none := by
  have hstart : "case object ".toList = "case ".toList ++ 'o' :: "bject ".toList := by decide
  rw [objectOf?, toList_caseText, hstart, dropStart?_cancel]
  apply dropStart?_of_head
  rw [List.head?_append, hroot, Option.some_or]
  decide

theorem readCase?_of_caseText (hreference : ' ' ∉ (hostConstant host c).toList)
    (hroot : (hostConstant host c).toList.head? = some '_') :
    ∃ text, caseOf? (caseText host c).toList = some text ∧
      readCase? text = readLink? c.name.toList (hostConstant host c).toList := by
  refine ⟨(hostConstant host c).toList ++ ' ' :: ("=> ".toList ++ c.name.toList), ?_, ?_⟩
  . rw [caseOf?, objectOf?_caseText hroot, toList_caseText, dropStart?_append]
    rfl
  . simp only [readCase?, cutFirst?_append hreference, dropStart?_append, Option.bind_eq_bind,
      Option.bind_some]

end

theorem filter_intercalate {ps : List (List Char)} (h : ∀ p ∈ ps, ' ' ∉ p) :
    ([',', ' '].intercalate ps).filter (· != ' ') = [','].intercalate ps := by
  have hfilter : ∀ p ∈ ps, p.filter (· != ' ') = p := by
    intro p hp
    rw [List.filter_eq_self]
    intro c hc
    rw [bne_iff_ne]
    rintro rfl
    exact h p hp hc
  clear h
  induction ps with
  | nil => rfl
  | cons p ps ih =>
    rw [List.forall_mem_cons] at hfilter
    cases ps with
    | nil => rw [List.intercalate_singleton, List.intercalate_singleton, hfilter.1]
    | cons q ps =>
      rw [List.intercalate_cons_cons, List.intercalate_cons_cons, List.filter_append,
        List.filter_append, hfilter.1, ih hfilter.2]
      rfl

theorem readValues?_of_valuesText {name : String} {cs : List Constant} (hname : '(' ∉ name.toList)
    (hvalues : ∀ c ∈ cs, IsPathText c.name.toList ∧ c.name.toList ≠ []) :
    ∃ text, valuesOf? (valuesText name cs).toList = some text ∧
      readValues? text = some (cs.map fun c => readName c.name.toList) := by
  have hplain : ∀ p ∈ cs.map fun c => c.name.toList, IsPathText p := by
    rw [List.forall_mem_map]
    exact fun c hc => (hvalues c hc).1
  have hfront : '(' ∉ "List[".toList ++ name.toList ++ "] = List".toList := by
    simp only [List.mem_append, not_or]
    exact ⟨⟨by decide, hname⟩, by decide⟩
  have helements : ')' ∉ [',', ' '].intercalate (cs.map fun c => c.name.toList) := by
    intro hmem
    obtain hsep | ⟨p, hp, hmem⟩ := mem_intercalate hmem
    . revert hsep
      decide
    . exact (hplain p hp).not_mem (by decide) hmem
  rw [toList_valuesText]
  refine ⟨_, dropStart?_append _ _, ?_⟩
  rw [readValues?, cutFirst?_append hfront, Option.bind_eq_bind, Option.bind_some]
  dsimp only
  rw [cutFirst?_append helements, Option.bind_some]
  dsimp only
  rw [List.isEmpty_nil, Bool.not_true, if_neg Bool.false_ne_true]
  -- no values are written as no text, which must not be read as one empty value
  cases cs with
  | nil => rfl
  | cons c cs =>
    have hne : ([',', ' '].intercalate ((c :: cs).map fun c => c.name.toList)).isEmpty = false := by
      obtain ⟨d, ds, hcons⟩ := List.exists_cons_of_ne_nil (hvalues c List.mem_cons_self).2
      cases cs with
      | nil =>
        rw [List.map_singleton, List.intercalate_singleton, hcons]
        rfl
      | cons c' cs =>
        rw [List.map_cons, List.map_cons, List.intercalate_cons_cons, hcons]
        rfl
    rw [hne, if_neg Bool.false_ne_true, filter_intercalate, pieces_intercalate, List.map_map]
    . rfl
    . exact List.cons_ne_nil _ _
    . exact fun p hp => (hplain p hp).not_mem (by decide)
    . exact fun p hp => (hplain p hp).not_mem (by decide)

theorem none_of_isOther {text : String} (h : isOther text = true) :
    objectOf? text.toList = none ∧ caseOf? text.toList = none ∧ valuesOf? text.toList = none := by
  rw [isOther, Bool.and_eq_true] at h
  have hc : text.toList.head? ≠ some 'c' := by
    rintro hhead
    rw [hhead] at h
    exact absurd h.2 (by decide)
  have hv : text.toList.head? ≠ some 'v' := by
    rintro hhead
    rw [hhead] at h
    exact absurd h.2 (by decide)
  have hobject : objectOf? text.toList = none := dropStart?_of_head hc
  refine ⟨hobject, ?_, dropStart?_of_head hv⟩
  rw [caseOf?, hobject]
  exact dropStart?_of_head hc

theorem isClean_of_isOther {l : Line} (h : isOther l.text = true) : l.IsClean := by
  rw [isOther, Bool.and_eq_true] at h
  refine ⟨by simpa using h.1, ?_⟩
  intro hhead
  rw [hhead] at h
  exact absurd h.2 (by decide)

theorem isClean_of_append {l : Line} {front back : List Char}
    (htext : l.text.toList = front ++ back) (hne : front ≠ []) (hspace : front.head? ≠ some ' ')
    (hfront : '\n' ∉ front) (hback : '\n' ∉ back) : l.IsClean := by
  rw [Line.IsClean, htext, List.head?_append_of_ne_nil _ hne, List.mem_append, not_or]
  exact ⟨⟨hfront, hback⟩, hspace⟩

theorem none_of_valuesText (name : String) (cs : List Constant) :
    objectOf? (valuesText name cs).toList = none ∧ caseOf? (valuesText name cs).toList = none := by
  have hstart : "val values: ".toList.head? = some 'v' := by decide
  have hhead : (valuesText name cs).toList.head? ≠ some 'c' := by
    rw [toList_valuesText, List.head?_append, hstart, Option.some_or]
    decide
  have hobject : objectOf? (valuesText name cs).toList = none := dropStart?_of_head hhead
  refine ⟨hobject, ?_⟩
  rw [caseOf?, hobject]
  exact dropStart?_of_head hhead

theorem valuesOf?_of_head {line : List Char} (h : line.head? = some 'c') :
    valuesOf? line = none := by
  apply dropStart?_of_head
  rw [h]
  decide

theorem mapM_filterMap {α β : Type} {f : α → List Char} {start : List Char → Option (List Char)}
    {read : List Char → Option β} {link : α → β} {items : List α}
    (h : ∀ item ∈ items, ∃ text, start (f item) = some text ∧ read text = some (link item)) :
    ((items.map f).filterMap start).mapM read = some (items.map link) := by
  induction items with
  | nil => rfl
  | cons item items ih =>
    rw [List.forall_mem_cons] at h
    obtain ⟨⟨text, hstart, hread⟩, hrest⟩ := h
    rw [List.map_cons, List.filterMap_cons_some hstart, List.mapM_cons, hread, ih hrest]
    rfl

/-- What is known of the outline of an enumeration: its names are written as they have to be. -/
structure Written (o : Outline) (cs : List Constant) : Prop where
  className : IsPathText o.className.toList
  package : '\n' ∉ (escapePath o.package).toList
  name : IsPathText o.name.toList
  hosts : ∀ c ∈ cs, Record.isIdentifier c.host.toList = true
  names : ∀ c ∈ cs, ∃ name, safeName? name = some c.name

section

variable {o : Outline} {cs : List Constant}

theorem Written.host (h : Written o cs) : IsPathText (hostReference o.className).toList :=
  isPathText_hostReference h.className

theorem Written.hostConstant (h : Written o cs) {c : Constant} (hc : c ∈ cs) :
    IsPathText (EnumWrapper.hostConstant (hostReference o.className) c).toList := by
  have hdot : IsPathText ".".toList := by decide
  have hconstant := isPathText_escapePath (isPathText_of_isIdentifier (h.hosts c hc))
  rw [EnumWrapper.hostConstant, String.toList_append, String.toList_append]
  exact (h.host.append hdot).append hconstant

theorem head?_hostConstant {c : Constant} :
    (EnumWrapper.hostConstant (hostReference o.className) c).toList.head? = some '_' := by
  have hroot : rootStart.toList.head? = some '_' := by decide
  rw [EnumWrapper.hostConstant, hostReference]
  simp only [String.toList_append, List.append_assoc]
  rw [List.head?_append, hroot, Option.some_or]

theorem Written.constantName (h : Written o cs) {c : Constant} (hc : c ∈ cs) :
    IsPathText c.name.toList ∧ c.name.toList ≠ [] := by
  obtain ⟨name, hsafe⟩ := h.names c hc
  exact ⟨isPathText_of_safeName? hsafe, ne_nil_of_safeName? hsafe⟩

theorem Written.isClean_object (h : Written o cs) {c : Constant} (hc : c ∈ cs) (level : Nat) :
    Line.IsClean ⟨level, objectText o.name (hostReference o.className) c⟩ := by
  refine isClean_of_append (toList_objectText _ _ c) ?_ ?_ ?_ ?_
  . decide
  . decide
  . decide
  . simp only [List.mem_append, List.mem_cons, not_or]
    exact ⟨(h.constantName hc).1.not_mem (by decide), by decide, by decide,
      h.name.not_mem (by decide), by decide, (h.hostConstant hc).not_mem (by decide), by decide,
      List.not_mem_nil⟩

theorem Written.isClean_case (h : Written o cs) {c : Constant} (hc : c ∈ cs) (level : Nat) :
    Line.IsClean ⟨level, caseText (hostReference o.className) c⟩ := by
  refine isClean_of_append (toList_caseText _ c) ?_ ?_ ?_ ?_
  . decide
  . decide
  . decide
  . simp only [List.mem_append, List.mem_cons, not_or]
    exact ⟨(h.hostConstant hc).not_mem (by decide), by decide, by decide,
      (h.constantName hc).1.not_mem (by decide)⟩

theorem Written.isClean_values (h : Written o cs) (level : Nat) :
    Line.IsClean ⟨level, valuesText o.name cs⟩ := by
  have helements : '\n' ∉ [',', ' '].intercalate (cs.map fun c => c.name.toList) := by
    intro hmem
    obtain hsep | ⟨_, hp, hmem⟩ := mem_intercalate hmem
    . revert hsep
      decide
    . obtain ⟨c, hc, rfl⟩ := List.mem_map.mp hp
      exact (h.constantName hc).1.not_mem (by decide) hmem
  refine isClean_of_append (toList_valuesText _ cs) ?_ ?_ ?_ ?_
  . decide
  . decide
  . decide
  . simp only [List.mem_append, List.mem_cons, not_or]
    exact ⟨⟨⟨by decide, h.name.not_mem (by decide)⟩, by decide⟩, by decide, helements, by decide,
      List.not_mem_nil⟩

/-- What is looked for in the source of the wrapper of an enumeration is found in the lines for its
constants only. -/
theorem Written.filterMap_codeLines (h : Written o cs) {start : List Char → Option (List Char)}
    (hstart : ∀ text, isOther text = true → start text.toList = none) :
    (codeLines (sourceFile o cs).render).filterMap start =
      (cs.map fun c => (objectText o.name (hostReference o.className) c).toList).filterMap start ++
        [(valuesText o.name cs).toList].filterMap start ++
        (cs.map fun c => (caseText (hostReference o.className) c).toList).filterMap start := by
  obtain ⟨front, gap, middle, back, hlines, hother⟩ := exists_allLines
    (h.className.not_mem (by decide)) h.package (h.name.not_mem (by decide))
    (h.host.not_mem (by decide)) cs
  simp only [List.forall_mem_append] at hother
  have hclean : ∀ l ∈ Fragment.allLines 0 (sourceFile o cs).fragments, l.IsClean := by
    simp only [hlines, List.forall_mem_append, List.forall_mem_map, List.forall_mem_singleton]
    exact ⟨⟨⟨⟨⟨⟨fun l hl => isClean_of_isOther (hother.1.1.1 l hl),
      fun c hc => h.isClean_object hc 1⟩, fun l hl => isClean_of_isOther (hother.1.1.2 l hl)⟩,
      h.isClean_values 1⟩, fun l hl => isClean_of_isOther (hother.1.2 l hl)⟩,
      fun c hc => h.isClean_case hc 2⟩, fun l hl => isClean_of_isOther (hother.2 l hl)⟩
  -- only the lines of the constants are left: the others start nothing that is read
  have hnone : ∀ lines : List Line, (∀ l ∈ lines, isOther l.text = true) →
      (lines.map (·.text.toList)).filterMap start = [] := by
    intro lines hlines
    rw [List.filterMap_map, List.filterMap_eq_nil_iff]
    exact fun l hl => hstart l.text (hlines l hl)
  have hempty : start [] = none := hstart "" (by decide)
  have hlast : [[]].filterMap start = [] := by
    rw [List.filterMap_cons_none hempty, List.filterMap_nil]
  rw [SourceFile.render_eq, codeLines_renderAll hclean, hlines]
  simp only [List.map_append, List.filterMap_append, hnone _ hother.1.1.1, hnone _ hother.1.1.2,
    hnone _ hother.1.2, hnone _ hother.2, hlast, List.map_map, List.nil_append, List.append_nil]
  rfl

theorem filterMap_map_of_none {line : Constant → List Char}
    {start : List Char → Option (List Char)} (h : ∀ c ∈ cs, start (line c) = none) :
    (cs.map line).filterMap start = [] := by
  rw [List.filterMap_map, List.filterMap_eq_nil_iff]
  exact h

theorem Written.exists_object (h : Written o cs) {c : Constant} (hc : c ∈ cs) : ∃ text,
    objectOf? (objectText o.name (hostReference o.className) c).toList = some text ∧
      readObject? text = some ⟨readName c.name.toList, hostReference o.className, c.host⟩ := by
  rw [← readLink?_hostConstant (h.hosts c hc) _]
  exact readObject?_of_objectText ((h.constantName hc).1.not_mem (by decide))
    (h.name.not_mem (by decide)) ((h.hostConstant hc).not_mem (by decide))

theorem Written.exists_case (h : Written o cs) {c : Constant} (hc : c ∈ cs) : ∃ text,
    caseOf? (caseText (hostReference o.className) c).toList = some text ∧
      readCase? text = some ⟨readName c.name.toList, hostReference o.className, c.host⟩ := by
  rw [← readLink?_hostConstant (h.hosts c hc) _]
  exact readCase?_of_caseText ((h.hostConstant hc).not_mem (by decide)) head?_hostConstant

theorem Written.filterMap_objectOf? (h : Written o cs) :
    (codeLines (sourceFile o cs).render).filterMap objectOf? =
      (cs.map fun c => (objectText o.name (hostReference o.className) c).toList).filterMap
        objectOf? := by
  have hcases : (cs.map fun c => (caseText (hostReference o.className) c).toList).filterMap
      objectOf? = [] := filterMap_map_of_none fun c _ => objectOf?_caseText head?_hostConstant
  rw [h.filterMap_codeLines fun text hother => (none_of_isOther hother).1, hcases,
    List.filterMap_cons_none (none_of_valuesText _ _).1, List.filterMap_nil, List.append_nil,
    List.append_nil]

theorem Written.filterMap_caseOf? (h : Written o cs) :
    (codeLines (sourceFile o cs).render).filterMap caseOf? =
      (cs.map fun c => (caseText (hostReference o.className) c).toList).filterMap caseOf? := by
  have hobjects : (cs.map fun c =>
      (objectText o.name (hostReference o.className) c).toList).filterMap caseOf? = [] := by
    apply filterMap_map_of_none
    intro c hc
    obtain ⟨text, hstart, -⟩ := h.exists_object hc
    rw [caseOf?, hstart]
    rfl
  rw [h.filterMap_codeLines fun text hother => (none_of_isOther hother).2.1, hobjects,
    List.filterMap_cons_none (none_of_valuesText _ _).2, List.filterMap_nil, List.append_nil,
    List.nil_append]

theorem Written.filterMap_valuesOf? (h : Written o cs) :
    (codeLines (sourceFile o cs).render).filterMap valuesOf? =
      [(valuesText o.name cs).toList].filterMap valuesOf? := by
  have hobjects : (cs.map fun c =>
      (objectText o.name (hostReference o.className) c).toList).filterMap valuesOf? = [] :=
    filterMap_map_of_none fun c _ => valuesOf?_of_head (head?_objectText _ _ c)
  have hcases : (cs.map fun c => (caseText (hostReference o.className) c).toList).filterMap
      valuesOf? = [] := filterMap_map_of_none fun c _ => valuesOf?_of_head (head?_caseText _ c)
  rw [h.filterMap_codeLines fun text hother => (none_of_isOther hother).2.2, hobjects, hcases,
    List.append_nil, List.nil_append]

/-- What is read back from the source of the wrapper of an enumeration is what its outline has. -/
theorem Written.read?_render (h : Written o cs) :
    read? (sourceFile o cs).render =
      some {
        objects := cs.map fun c => ⟨readName c.name.toList, hostReference o.className, c.host⟩
        values := cs.map fun c => readName c.name.toList
        cases := cs.map fun c => ⟨readName c.name.toList, hostReference o.className, c.host⟩
      } := by
  obtain ⟨text, hvalues, hread⟩ := readValues?_of_valuesText (h.name.not_mem (by decide))
    fun c hc => h.constantName hc
  unfold read?
  dsimp only
  rw [h.filterMap_objectOf?, h.filterMap_caseOf?, h.filterMap_valuesOf?,
    List.filterMap_cons_some hvalues, List.filterMap_nil,
    mapM_filterMap fun c hc => h.exists_object hc, mapM_filterMap fun c hc => h.exists_case hc]
  simp only [hread]
  rfl

set_option maxRecDepth 10000 in
example :
    read? ("object Kind \x7b\n  case object `type` extends Kind(_root_.p.Kind.`type`)\n\n" ++
        "  val values: List[Kind] = List(`type`)\n\n    case _root_.p.Kind.`type` => `type`\n") =
      some ⟨[⟨"type", "_root_.p.Kind", "type"⟩], ["type"], [⟨"type", "_root_.p.Kind", "type"⟩]⟩ := by
  rfl

theorem map_link_of_forall₂ {names : List String} (host : String)
    (h : List.Forall₂ (fun name (c : Constant) => safeName? name = some c.name) names cs) :
    cs.map (fun c => readName c.name.toList) = names ∧
      cs.map (fun c => (⟨readName c.name.toList, host, c.host⟩ : Link)) =
        names.zipWith (fun name constant => ⟨name, host, constant⟩) (cs.map Constant.host) := by
  induction h with
  | nil => exact ⟨rfl, rfl⟩
  | cons hsafe _ ih =>
    obtain ⟨hvalues, hlinks⟩ := ih
    rw [List.map_cons, List.map_cons, List.map_cons, List.zipWith_cons_cons, hvalues, hlinks,
      readName_of_safeName? hsafe]
    exact ⟨rfl, rfl⟩

end

end EnumWrapper

end Scala

namespace Record

theorem constants_of_checkConstants {className : String} {seen constants : List String}
    (h : checkConstants className seen constants = .ok ()) :
    (∀ constant ∈ constants, isIdentifier constant.toList = true ∧ constant ∉ seen) ∧
      constants.Nodup := by
  induction constants generalizing seen with
  | nil => exact ⟨nofun, .nil⟩
  | cons constant constants ih =>
    rw [checkConstants] at h
    split at h
    . cases h
    . next hidentifier =>
      split at h
      . cases h
      . next hseen =>
        obtain ⟨hrest, hnodup⟩ := ih h
        rw [List.forall_mem_cons, List.nodup_cons]
        refine ⟨⟨⟨by simpa using hidentifier, by simpa using hseen⟩, ?_⟩, ?_, hnodup⟩
        . intro other hother
          obtain ⟨hidentifier, hfree⟩ := hrest other hother
          exact ⟨hidentifier, fun hmem => hfree (List.mem_cons_of_mem _ hmem)⟩
        . exact fun hmem => (hrest constant hmem).2 List.mem_cons_self

theorem enumeration_of_describe {markers : Settings.Markers} {enums : List String} {r : Record}
    {c : HostClass} (henum : r.isEnum = true) (h : describe markers enums r = .ok c) :
    isQualifiedName r.name = true ∧
      (∀ constant ∈ r.constants, isIdentifier constant.toList = true) ∧ r.constants.Nodup ∧
        c = .enumeration r.name r.constants := by
  obtain ⟨_, hname, h⟩ := bind_eq_ok_iff.mp h
  rw [if_pos henum] at h
  obtain ⟨_, hconstants, h⟩ := bind_eq_ok_iff.mp h
  obtain ⟨hidentifiers, hnodup⟩ := constants_of_checkConstants hconstants
  unfold checkClassName at hname
  split at hname
  . cases hname
  . split at hname
    . next hqualified =>
      exact ⟨hqualified, fun constant hmem => (hidentifiers constant hmem).1, hnodup,
        (Except.ok.inj h).symm⟩
    . cases hname

end Record

namespace Batch

open Scala

theorem break_not_mem_packageSuffix {text : String} {settings : Settings}
    (h : Settings.parse text = .ok settings) :
    '\n' ∉ settings.generator.packageSuffix.toList := by
  intro hmem
  obtain ⟨segment, hsegment, hmem⟩ := exists_mem_pieces '.' hmem (by decide)
  have hproblem := Settings.segmentProblem?_of_parse h segment hsegment
  have hchar := Settings.isSegmentChar_of_mem hproblem hmem
  revert hchar
  decide

theorem break_not_mem_wrapperPackage {settings : Settings} {name : String}
    (hsuffix : '\n' ∉ settings.generator.packageSuffix.toList) (hname : IsPathText name.toList) :
    '\n' ∉ (escapePath (settings.wrapperPackage (packageOf name))).toList := by
  have hpackage : '\n' ∉ (packageOf name).toList := by
    unfold packageOf
    split
    . next package behind hcut =>
      rw [(cutLast?_eq_some hcut).1] at hname
      rw [String.toList_ofList]
      exact fun hmem => hname.not_mem (by decide) (List.mem_append_left _ hmem)
    . exact List.not_mem_nil
  have hplain : ∀ c ∈ (settings.wrapperPackage (packageOf name)).toList, c ≠ '\n' := by
    rintro c hmem rfl
    unfold Settings.wrapperPackage at hmem
    split at hmem
    . exact hsuffix hmem
    . rw [String.toList_append, String.toList_append, List.mem_append, List.mem_append] at hmem
      obtain (hmem | hmem) | hmem := hmem
      . exact hpackage hmem
      . revert hmem
        decide
      . exact hsuffix hmem
  exact fun hmem => forall_mem_escapePath (by decide) (by decide) hplain '\n' hmem rfl

/-- What is read back from the file of an enumeration are its constants in the order of their
declaration: each has an object, an element of the list of all constants and a case, all three of
one name, which no other constant has, and both the object and the case refer to that constant. -/
theorem enumeration_read_back {settings : Settings} {records : List Record} {result : Result}
    (hsuffix : '\n' ∉ settings.generator.packageSuffix.toList)
    (h : Yields settings records result) {r : Record} {file : GeneratedFile}
    (hmem : (r.name, file) ∈ result.generated)
    (hfirst : records.find? (·.name == r.name) = some r) (henum : r.isEnum = true) :
    ∃ names : List String, names.Nodup ∧ names.length = r.constants.length ∧ r.constants.Nodup ∧
      EnumWrapper.read? file.content = some {
        objects := names.zipWith (fun name constant => ⟨name, hostReference r.name, constant⟩)
          r.constants
        values := names
        cases := names.zipWith (fun name constant => ⟨name, hostReference r.name, constant⟩)
          r.constants
      } := by
  obtain ⟨c, catalog, outline, hdescribe, hfrom, houtline, rfl⟩ := h.outline_of_first hmem hfirst
  obtain ⟨hqualified, hidentifiers, hnodup, rfl⟩ := Record.enumeration_of_describe henum hdescribe
  obtain ⟨entry, name, hentry, hname, hbody, ho⟩ := Outline.ofClass_cases houtline
  obtain ⟨r', -, c', -, hname', rfl⟩ := hfrom _ _ hentry
  obtain ⟨cs, hcs, hbody⟩ := bind_eq_ok_iff.mp hbody
  obtain ⟨hhosts, names, hdistinct, -, hnames⟩ := Outline.named_of_constants hcs
  have hhosts : cs.map Outline.Constant.host = r.constants := hhosts
  have hclass : outline.className = r.name := by
    rw [ho]
    rfl
  have hwritten : EnumWrapper.Written outline cs := by
    constructor
    . rw [hclass]
      exact isPathText_of_isQualifiedName hqualified
    . have hpackage : outline.package = settings.wrapperPackage (packageOf r.name) := by
        rw [ho]
        exact congrArg (fun name => settings.wrapperPackage (packageOf name)) hname'
      rw [hpackage]
      exact break_not_mem_wrapperPackage hsuffix (isPathText_of_isQualifiedName hqualified)
    . rw [ho]
      exact isPathText_of_safeName? hname
    . intro c hc
      apply hidentifiers
      -- the names of the host's constants come from its record, which checked them
      have hmem := List.mem_map_of_mem hc (f := Outline.Constant.host)
      rwa [hhosts] at hmem
    . intro c hc
      obtain ⟨name, -, hsafe⟩ := exists_of_mem_right hnames hc
      exact ⟨name, hsafe⟩
  obtain ⟨hvalues, hlinks⟩ := EnumWrapper.map_link_of_forall₂ (hostReference r.name) hnames
  have hcontent : outline.file.content = (EnumWrapper.sourceFile outline cs).render := by
    rw [Outline.file, Outline.sourceFile, ← Except.ok.inj hbody]
  refine ⟨names, hdistinct, ?_, hnodup, ?_⟩
  . rw [← hhosts, List.length_map, hnames.length_eq]
  . rw [hcontent, hwritten.read?_render, hclass, hvalues, hlinks, hhosts]

def wordRecord : Record :=
  enumRecord "p.Word" ["type", "values", "values2", "x$y"]

set_option maxRecDepth 10000 in
/-- A constant is named like a word and two like members, and all four are there. -/
theorem enumeration_read_back_word :
    ∃ result file names, Yields nestedSettings [wordRecord] result ∧
      ("p.Word", file) ∈ result.generated ∧ names.Nodup ∧ names.length = 4 ∧
      EnumWrapper.read? file.content = some {
        objects := names.zipWith (fun name constant => ⟨name, "_root_.p.Word", constant⟩)
          ["type", "values", "values2", "x$y"]
        values := names
        cases := names.zipWith (fun name constant => ⟨name, "_root_.p.Word", constant⟩)
          ["type", "values", "values2", "x$y"]
      } := by
  have houtcome : (outcomeOf nestedSettings [wordRecord]).map (fun result =>
      result.generated.map Prod.fst) = .ok ["p.Word"] := rfl
  obtain ⟨result, hyields, hgenerated⟩ := exists_yields_of_map houtcome
  have hword : wordRecord.name ∈ result.generated.map Prod.fst := by
    rw [hgenerated]
    decide
  obtain ⟨⟨_, file⟩, hmem, rfl⟩ := List.mem_map.mp hword
  have hfirst : [wordRecord].find? (·.name == wordRecord.name) = some wordRecord := by decide
  obtain ⟨names, hnodup, hlength, -, hread⟩ := enumeration_read_back
    (break_not_mem_packageSuffix parse_nestedText) hyields hmem hfirst (by decide)
  have hhost : hostReference wordRecord.name = "_root_.p.Word" := rfl
  rw [hhost] at hread
  exact ⟨result, file, names, hyields, hmem, hnodup, hlength, hread⟩

end Batch

end Facade
