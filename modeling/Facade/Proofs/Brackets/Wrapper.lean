import Facade.Proofs.Brackets.Source
import Facade.Proofs.Outline.Written

/-!
This module contains the proofs about brackets in the source of a wrapper: its types, conversions and
members close the brackets that they open, if the words that it is written with are without brackets.
-/

namespace Facade.Scala

open Text Host Source

section

variable {name : String}

theorem bare_escapePath (h : Bare name) : Bare (escapePath name) :=
  forall_mem_escapePath (by decide) (by decide) h

theorem bare_hostReference (h : Bare name) : Bare (hostReference name) := by
  have hroot : Bare rootStart := by decide
  exact hroot.append (bare_escapePath (forall_mem_sourceNameOf (by decide) h))

theorem bare_exceptionReference (h : Bare name) : Bare (exceptionReference name) := by
  rw [exceptionReference_eq]
  cases hsimple : simpleException? name with
  | none => exact bare_hostReference h
  | some simple =>
    intro c hc
    refine h c ?_
    rw [(simpleException?_eq_some.mp hsimple).1, String.toList_append]
    exact List.mem_append_right _ hc

theorem bare_literalName (h : Bare name) : Bare (literalName name) := by
  intro c hc
  rw [literalName, String.toList_ofList] at hc
  obtain ⟨d, hd, hc⟩ := List.mem_flatMap.mp hc
  split at hc
  . rw [List.mem_cons, List.mem_singleton, or_self] at hc
    rw [hc]
    decide
  . rw [List.mem_singleton.mp hc]
    apply h
    have hbare := (List.dropWhile_suffix _).mem (List.mem_reverse.mp hd)
    exact (List.dropWhile_suffix _).mem (List.mem_reverse.mp hbare)

theorem bare_toString (n : Nat) : Bare (toString n) := by
  have hdigits : ∀ c ∈ brackets, c.isDigit = false := forall_brackets (by decide)
  intro c hc hbracket
  have hdigit := isDigit_of_mem_toString hc
  rw [hdigits c hbracket] at hdigit
  cases hdigit

end

namespace Expression

section

variable {x : Expression} {text : String}

theorem nested_select (h : Nested x.render) (htext : Nested text) : Nested (x.select text).render := by
  simp [Nested, render, h.scan_eq, htext.scan_eq]

theorem nested_call (h : Nested x.render) (htext : Nested text) : Nested (call text x).render := by
  simp [Nested, render, h.scan_eq, htext.scan_eq]

theorem nested_create (h : Nested x.render) (htext : Nested text) :
    Nested (create text x).render := by
  simp [Nested, render, h.scan_eq, htext.scan_eq]

theorem nested_mapElements {element : String} {body : Expression} (h : Nested x.render)
    (helement : Nested element) (hbody : Nested body.render) :
    Nested (x.mapElements element body).render := by
  simp [Nested, render, h.scan_eq, helement.scan_eq, hbody.scan_eq]

theorem nested_mapEntries {key value : String} {keyBody valueBody : Expression}
    (h : Nested x.render) (hkey : Nested key) (hvalue : Nested value)
    (hkeyBody : Nested keyBody.render) (hvalueBody : Nested valueBody.render) :
    Nested (x.mapEntries key value keyBody valueBody).render := by
  simp [Nested, render, h.scan_eq, hkey.scan_eq, hvalue.scan_eq, hkeyBody.scan_eq,
    hvalueBody.scan_eq]

theorem nested_traversal (h : Nested x.render) : Nested x.traversal.render := by
  unfold traversal
  split
  . exact nested_select h (by decide)
  . exact h

/-- Whether what an expression is made into closes the brackets that it opens if the expression does. -/
def KeepsNested (convert : Expression → Expression) : Prop :=
  ∀ x, Nested x.render → Nested (convert x).render

theorem nested_convertElements (h : Nested x.render) (depth : Nat)
    {convert : Expression → Expression} (hconvert : KeepsNested convert) :
    Nested (x.convertElements depth convert).render := by
  have hstart : Nested "e" := by decide
  have helement := hstart.append (bare_toString depth).nested
  unfold convertElements
  dsimp only
  split
  . exact h
  . exact nested_mapElements (nested_traversal h) helement (hconvert _ helement)

theorem nested_convertEntries (h : Nested x.render) (depth : Nat)
    {convertKey convertValue : Expression → Expression} (hconvertKey : KeepsNested convertKey)
    (hconvertValue : KeepsNested convertValue) :
    Nested (x.convertEntries depth convertKey convertValue).render := by
  have hkeyStart : Nested "k" := by decide
  have hvalueStart : Nested "v" := by decide
  have hkey := hkeyStart.append (bare_toString depth).nested
  have hvalue := hvalueStart.append (bare_toString depth).nested
  unfold convertEntries
  dsimp only
  split
  . exact h
  . exact nested_mapEntries (nested_traversal h) hkey hvalue (hconvertKey _ hkey)
      (hconvertValue _ hvalue)

end

end Expression

namespace ScalaType

def Nests : ScalaType → Prop
  | scalar _ _ => True
  | enumeration name _ => Nested name
  | wrapper name _ => Nested name
  | external expression => Nested expression
  | list element => element.Nests
  | set element => element.Nests
  | map key value => key.Nests ∧ value.Nests
  | option value => value.Nests

theorem nested_scalarName (s : Scalar) : Nested (scalarName s) := by
  cases s <;> decide

theorem Nests.render {type : ScalaType} (h : type.Nests) : Nested type.render := by
  induction type with
  | scalar s => exact nested_scalarName s
  | enumeration | wrapper | external => exact h
  | list element ih | set element ih | option element ih =>
    simp [Nested, ScalaType.render, (ih h).scan_eq]
  | map key value ihk ihv =>
    simp [Nested, ScalaType.render, (ihk h.1).scan_eq, (ihv h.2).scan_eq]

end ScalaType

open Expression in
theorem keepsNested_toHostAt {type : ScalaType} (h : type.Nests) (depth : Nat) :
    KeepsNested (toHostAt type depth) := by
  induction type generalizing depth with
  | scalar s boxed =>
    intro x hx
    unfold toHostAt
    split
    . exact nested_call hx ((ScalaType.nested_scalarName s).append (by decide))
    . exact hx
  | enumeration | wrapper => exact fun x hx => nested_select hx (by decide)
  | external => exact fun x hx => hx
  | list element ih | set element ih | option element ih =>
    exact fun x hx => nested_select (nested_convertElements hx depth (ih h (depth + 1))) (by decide)
  | map key value ihk ihv =>
    exact fun x hx => nested_select
      (nested_convertEntries hx depth (ihk h.1 (depth + 1)) (ihv h.2 (depth + 1))) (by decide)

open Expression in
theorem keepsNested_fromHostAt {type : ScalaType} (h : type.Nests) (depth : Nat) :
    KeepsNested (fromHostAt type depth) := by
  induction type generalizing depth with
  | scalar s boxed =>
    intro x hx
    have hmember : Nested (loweredName s ++ "Value") := by
      cases s <;> decide
    unfold fromHostAt
    split
    . exact nested_select hx hmember
    . exact hx
  | enumeration name =>
    have hname : Nested name := h
    exact fun x hx => nested_call hx (hname.append (by decide))
  | wrapper name =>
    have hname : Nested name := h
    exact fun x hx => nested_create hx hname
  | external => exact fun x hx => hx
  | list element ih | set element ih =>
    intro x hx
    have hcollection : Nested (x.select "asScala").render := nested_select hx (by decide)
    exact nested_select (nested_convertElements hcollection depth (ih h (depth + 1))) (by decide)
  | map key value ihk ihv =>
    intro x hx
    have hentries : Nested (x.select "asScala").render := nested_select hx (by decide)
    exact nested_call (nested_convertEntries hentries depth (ihk h.1 (depth + 1))
      (ihv h.2 (depth + 1))) (by decide)
  | option value ih =>
    intro x hx
    have hoption : Nested (call "Option" x).render := nested_call hx (by decide)
    exact nested_convertElements hoption depth (ih h (depth + 1))

namespace ClassWrapper

open Outline

theorem nests_either {d : Def} (h : d.Nests) {error type value : String} (herror : Nested error)
    (htype : Nested type) (hvalue : Nested value) {exceptions : List String}
    (hexceptions : ∀ e ∈ exceptions, Nested e) :
    ({ d with
        returns := some ("Either[" ++ error ++ ", " ++ type ++ "]")
        body := tryFragments value exceptions } : Def).Nests := by
  refine ⟨h.name, h.params, ?_, nests_tryFragments hvalue hexceptions, h.doc⟩
  rintro result ⟨⟩
  simp [Nested, herror.scan_eq, htype.scan_eq]

theorem nests_fallible {d : Def} (h : d.Nests) {type value : String} (htype : Nested type)
    (hvalue : Nested value) {exceptions : List String} (hexceptions : ∀ e ∈ exceptions, Bare e) :
    (fallible d type value exceptions).Nests := by
  have hreferences : ∀ e ∈ exceptions, Nested (exceptionReference e) :=
    fun e he => (bare_exceptionReference (hexceptions e he)).nested
  unfold fallible
  split
  . refine ⟨h.name, h.params, ?_, Fragment.nests_line hvalue, h.doc⟩
    rintro result ⟨⟩
    exact htype
  . rw [List.forall_mem_singleton] at hreferences
    exact nests_either h hreferences htype hvalue (List.forall_mem_singleton.mpr hreferences)
  . have hthrowable : Nested "Throwable" := by decide
    exact nests_either h hthrowable htype hvalue (List.forall_mem_map.mpr hreferences)

theorem nests_constructorDef {host : String} (hhost : Nested host) {k : Constructor}
    (hnames : ∀ p ∈ k.parameters, Bare p.name) (htypes : ∀ p ∈ k.parameters, p.type.target.Nests) :
    (constructorDef host k).Nests := by
  have hvalues : ∀ p ∈ k.parameters, Nested (toHost p.type.target (.code p.name)).render :=
    fun p hp => keepsNested_toHostAt (htypes p hp) 0 (.code p.name) (hnames p hp).nested
  have hcomma : Nested ", " := by decide
  have harguments := nested_intercalate hcomma (List.forall_mem_map.mpr hvalues)
  constructor
  . exact (by decide : Nested "this")
  . rintro params ⟨⟩
    rw [List.forall_mem_map]
    exact fun p hp => Param.nested_render (hnames p hp).nested (htypes p hp).render
  . exact nofun
  . apply Fragment.nests_line
    generalize ", ".intercalate _ = arguments at harguments ⊢
    simp [Nested, hhost.scan_eq, harguments.scan_eq]
  . exact nofun

theorem nests_getterDef {g : Getter} (hmethod : Bare g.hostMethod) (hname : Bare g.name)
    (htype : g.type.target.Nests) (hthrows : ∀ e ∈ g.throws, Bare e) : (getterDef g).Nests := by
  have hcall : Nested ("underlying." ++ escapePath g.hostMethod ++ "()") := by
    simp [Nested, (bare_escapePath hmethod).nested.scan_eq]
  have hvalue := keepsNested_fromHostAt htype 0 (.code _) hcall
  refine nests_fallible ?_ htype.render hvalue hthrows
  refine ⟨hname.nested, nofun, nofun, Fragment.nests_nil, ?_⟩
  dsimp only
  split
  . rw [List.forall_mem_singleton]
    simp [Nested, hmethod.nested.scan_eq]
  . exact nofun

theorem nests_setterDef {s : Setter} (hmethod : Bare s.hostMethod) (hname : Bare s.name)
    (htype : s.type.target.Nests) (hthrows : ∀ e ∈ s.throws, Bare e) : (setterDef s).Nests := by
  have hassigned : Nested assigned := by decide
  have hvalue := keepsNested_toHostAt htype 0 (.code assigned) hassigned
  refine nests_fallible ?_ (by decide) ?_ hthrows
  . refine ⟨hname.nested, ?_, nofun, Fragment.nests_nil, nofun⟩
    rintro params ⟨⟩
    rw [List.forall_mem_singleton]
    exact Param.nested_render hassigned htype.render
  . simp [Nested, (bare_escapePath hmethod).nested.scan_eq, toHost, hvalue.scan_eq]

theorem nested_conjunctionTail {terms : List String} (h : ∀ term ∈ terms, Nested term) :
    ∀ line ∈ conjunctionTail terms, Nested line := by
  have hnext : ∀ term, Nested term → Nested ("  " ++ term) := by
    intro term hterm
    simp [Nested, hterm.scan_eq]
  fun_induction conjunctionTail terms with
  | case1 => exact List.forall_mem_nil _
  | case2 last =>
    rw [List.forall_mem_singleton] at h ⊢
    exact hnext last h
  | case3 next more hmore ih =>
    rw [List.forall_mem_cons] at h ⊢
    exact ⟨(hnext next h.1).append (by decide), ih h.2⟩

theorem nested_conjunction {terms : List String} (h : ∀ term ∈ terms, Nested term) :
    ∀ line ∈ conjunction terms, Nested line := by
  unfold conjunction
  split
  . exact nofun
  . exact h
  . rw [List.forall_mem_cons] at h ⊢
    exact ⟨h.1.append (by decide), nested_conjunctionTail h.2⟩

section

variable {name : String} {compared : List String}

theorem nests_equalsDef (hname : Bare name) (hcompared : ∀ member ∈ compared, Bare member) :
    (equalsDef name compared).Nests := by
  -- without members to compare, the underlying objects are compared
  have hcomparisons : ∀ comparison ∈
      (if compared.isEmpty then ["this.underlying == that.underlying"]
        else compared.map fun member => "this." ++ member ++ " == that." ++ member),
      Nested comparison := by
    split
    . decide
    . rw [List.forall_mem_map]
      intro member hmember
      simp [Nested, (hcompared member hmember).nested.scan_eq]
  have hthat : Nested ("that: " ++ name) := by
    simp [Nested, hname.nested.scan_eq]
  constructor
  . exact (by decide : Nested "equals")
  . rintro params ⟨⟩
    decide
  . rintro result ⟨⟩
    decide
  . apply nests_matchFragment (by decide)
    simp only [List.forall_mem_cons]
    refine ⟨Case.nests_fragment hthat (nested_conjunction hcomparisons), ?_, List.forall_mem_nil _⟩
    exact Case.nests_fragment (by decide) (by decide)
  . exact List.forall_mem_nil _

theorem nests_hashCodeDef (hcompared : ∀ member ∈ compared, Bare member) :
    (hashCodeDef compared).Nests := by
  have hmembers : Nested (", ".intercalate compared) :=
    nested_intercalate (by decide) fun member hmember => (hcompared member hmember).nested
  constructor
  . exact (by decide : Nested "hashCode")
  . rintro params ⟨⟩
    exact nofun
  . rintro result ⟨⟩
    decide
  . apply Fragment.nests_line
    split
    . decide
    . generalize ", ".intercalate compared = members at hmembers ⊢
      simp [Nested, hmembers.scan_eq]
  . exact nofun

theorem nests_toStringDef (hname : Bare name) (hcompared : ∀ member ∈ compared, Bare member) :
    (toStringDef name compared).Nests := by
  have hshown : Nested (if compared.isEmpty then "$\x7bunderlying\x7d"
      else ", ".intercalate (compared.map fun member =>
        literalName member ++ "=$\x7b" ++ member ++ "\x7d")) := by
    split
    . decide
    . refine nested_intercalate (by decide) (List.forall_mem_map.mpr fun member hmember => ?_)
      have hmember := hcompared member hmember
      simp [Nested, (bare_literalName hmember).nested.scan_eq, hmember.nested.scan_eq]
  have hliteral : ∀ shown, Nested shown →
      Nested ("s\"" ++ literalName name ++ "(" ++ shown ++ ")\"") := by
    intro shown h
    simp [Nested, (bare_literalName hname).nested.scan_eq, h.scan_eq]
  constructor
  . exact (by decide : Nested "toString")
  . exact nofun
  . rintro result ⟨⟩
    decide
  . exact Fragment.nests_line (hliteral _ hshown)
  . exact nofun

end

theorem nested_imports (constructors : List Constructor) (getters : List Getter)
    (setters : List Setter) : ∀ entry ∈ imports constructors getters setters,
      Nested (importLine entry.1 entry.2) := by
  unfold imports
  dsimp only
  split <;> split <;> decide

end ClassWrapper

namespace EnumWrapper

open Outline

variable {name host : String} {constants : List Constant}

theorem nested_hostConstant (hhost : Nested host) {c : Constant} (hc : Bare c.host) :
    Nested (hostConstant host c) := by
  simp [Nested, hostConstant, hhost.scan_eq, (bare_escapePath hc).nested.scan_eq]

theorem nests_constantDef (hname : Nested name) (hhost : Nested host) {c : Constant}
    (hc : Bare c.host) (hobject : Bare c.name) : Fragment.Nests (constantDef name host c).fragments := by
  apply ObjectDef.nests_fragments hobject.nested
  . rintro parent ⟨⟩
    simp [Nested, hname.scan_eq, (nested_hostConstant hhost hc).scan_eq]
  . exact nofun

theorem nests_valuesFragment (hname : Nested name) (hconstants : ∀ c ∈ constants, Bare c.name) :
    Fragment.Nests [valuesFragment name constants] := by
  have hcomma : Nested ", " := by decide
  have helements := nested_intercalate hcomma
    (List.forall_mem_map.mpr fun c hc => (hconstants c hc).nested)
  apply Fragment.nests_line
  generalize ", ".intercalate _ = elements at helements ⊢
  simp [Nested, hname.scan_eq, helements.scan_eq]

theorem nests_fromHostDef (hname : Nested name) (hhost : Nested host)
    (hconstants : ∀ c ∈ constants, Bare c.host ∧ Bare c.name) :
    (fromHostDef name host constants).Nests := by
  have hbody : ∀ body, Fragment.Nests body → Def.Nests
      { name := "fromJava", params := some [{ name := "value", type := host }], returns := some name
        body } := by
    intro body hbody
    have hvalue : Nested "value" := by decide
    refine ⟨(by decide : Nested "fromJava"), ?_, ?_, hbody, nofun⟩
    . rintro params ⟨⟩
      rw [List.forall_mem_singleton]
      exact Param.nested_render hvalue hhost
    . rintro result ⟨⟩
      exact hname
  unfold fromHostDef
  dsimp only
  split
  . exact hbody _ (Fragment.nests_line (by decide))
  . apply hbody
    apply nests_matchFragment (by decide)
    rw [List.forall_mem_map]
    intro c hc
    obtain ⟨hpattern, hobject⟩ := hconstants c hc
    exact Case.nests_fragment (nested_hostConstant hhost hpattern)
      (List.forall_mem_singleton.mpr hobject.nested)

end EnumWrapper

namespace Outline

def words (o : Outline) : List String :=
  match o.body with
  | .enumeration constants => constants.flatMap fun c => [c.host, c.name]
  | .members constructors getters setters =>
    constructors.flatMap (fun k => k.parameters.map Parameter.name) ++
      getters.flatMap (fun g => [g.hostMethod, g.name]) ++
      setters.flatMap fun s => [s.hostMethod, s.name]

/-- Whether the names that a wrapper is written with are without brackets, and its types close those
that they open. -/
structure Nests (o : Outline) : Prop where
  className : Bare o.className
  package : Bare o.package
  name : Bare o.name
  words : ∀ word ∈ o.words, Bare word
  exceptions : ∀ e ∈ o.exceptions, Bare e
  types : ∀ type ∈ o.memberTypes, type.target.Nests

variable {o : Outline}

theorem Nests.enumeration (h : o.Nests) {constants : List Constant}
    (hbody : o.body = .enumeration constants) :
    ∀ group ∈ o.sourceFile.body, Fragment.Nests group := by
  have hwords := h.words
  rw [Outline.words, hbody] at hwords
  simp only [List.forall_mem_flatMap, List.forall_mem_cons] at hwords
  have hhost := (bare_hostReference h.className).nested
  have hconstants : ∀ c ∈ constants, Bare c.host ∧ Bare c.name :=
    fun c hc => ⟨(hwords c hc).1, (hwords c hc).2.1⟩
  have hgroups : o.sourceFile.body = [(EnumWrapper.wrapper o).fragments,
      (EnumWrapper.companion o constants).fragments] := by
    rw [sourceFile, hbody]
    rfl
  rw [hgroups]
  simp only [List.forall_mem_cons]
  refine ⟨?_, ?_, List.forall_mem_nil _⟩
  . have hmodifiers : ∀ modifier ∈ ["sealed abstract"], Nested modifier := by decide
    have htoJava : Nested "toJava" := by decide
    refine ClassDef.nests_fragments h.name.nested hmodifiers ?_ (List.forall_mem_nil _)
    exact List.forall_mem_singleton.mpr (Param.nested_render htoJava hhost)
  . apply ObjectDef.nests_fragments h.name.nested
    . rintro parent ⟨⟩
    . simp only [EnumWrapper.companion, List.forall_mem_cons]
      refine ⟨?_, ?_, ?_, List.forall_mem_nil _⟩
      . exact Fragment.nests_flatMap fun c hc => EnumWrapper.nests_constantDef h.name.nested hhost
          (hconstants c hc).1 (hconstants c hc).2
      . exact EnumWrapper.nests_valuesFragment h.name.nested fun c hc => (hconstants c hc).2
      . exact (EnumWrapper.nests_fromHostDef h.name.nested hhost hconstants).fragments

theorem Nests.members (h : o.Nests) {constructors : List Constructor} {getters : List Getter}
    {setters : List Setter} (hbody : o.body = .members constructors getters setters) :
    ∀ d ∈ ClassWrapper.memberDefs o constructors getters setters, d.Nests := by
  have hhost := (bare_hostReference h.className).nested
  obtain ⟨-, -, hname, hwords, hexceptions, htypes⟩ := h
  simp only [Outline.words, Outline.exceptions, memberTypes, hbody, List.forall_mem_append,
    List.forall_mem_flatMap, List.forall_mem_map, List.forall_mem_cons] at hwords hexceptions htypes
  obtain ⟨⟨hparameters, hgetters⟩, hsetters⟩ := hwords
  obtain ⟨⟨hgiven, hread⟩, hassigned⟩ := htypes
  have hcompared : ∀ member ∈ ClassWrapper.compared getters, Bare member := by
    rw [ClassWrapper.compared, List.forall_mem_map]
    exact fun g hg => (hgetters g (List.mem_filter.mp hg).1).2.1
  simp only [ClassWrapper.memberDefs, List.forall_mem_append, List.forall_mem_map,
    List.forall_mem_cons]
  refine ⟨⟨⟨?_, ?_⟩, ?_⟩, ?_⟩
  . exact fun k hk => ClassWrapper.nests_constructorDef hhost (hparameters k hk) (hgiven k hk)
  . exact fun g hg => ClassWrapper.nests_getterDef (hgetters g hg).1 (hgetters g hg).2.1 (hread g hg)
      (hexceptions.1 g hg)
  . exact fun s hs => ClassWrapper.nests_setterDef (hsetters s hs).1 (hsetters s hs).2.1
      (hassigned s hs) (hexceptions.2 s hs)
  . exact ⟨ClassWrapper.nests_equalsDef hname hcompared, ClassWrapper.nests_hashCodeDef hcompared,
      ClassWrapper.nests_toStringDef hname hcompared, List.forall_mem_nil _⟩

/-- The brackets in the source of a wrapper are nested if the names in it are without brackets. -/
theorem Nests.nested_content (h : o.Nests) : Nested o.file.content := by
  have hpackage : o.sourceFile.package = o.package := by
    unfold sourceFile
    split <;> rfl
  have horigin : o.sourceFile.origin = some o.className := by
    unfold sourceFile
    split <;> rfl
  apply SourceFile.nested_render
  . rw [hpackage]
    exact (bare_escapePath h.package).nested
  . rw [horigin]
    rintro origin ⟨⟩
    exact h.className.nested
  . unfold sourceFile
    split
    . exact nofun
    . exact ClassWrapper.nested_imports _ _ _
  . cases hbody : o.body with
    | enumeration constants => exact h.enumeration hbody
    | members constructors getters setters =>
      rw [sourceFile, hbody]
      dsimp only
      rw [ClassWrapper.body_sourceFile, List.forall_mem_singleton]
      have hmodifiers : ∀ modifier ∈ ["final"], Nested modifier := by decide
      have hunderlying : Nested "underlying" := by decide
      refine ClassDef.nests_fragments h.name.nested hmodifiers ?_ ?_
      . exact List.forall_mem_singleton.mpr
          (Param.nested_render hunderlying (bare_hostReference h.className).nested)
      . exact List.forall_mem_map.mpr fun d hd => (h.members hbody d hd).fragments

end Outline

end Facade.Scala
