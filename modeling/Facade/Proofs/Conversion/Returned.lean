import Facade.Proofs.Alike.Types
import Facade.Proofs.Conversion.Inverse
import Facade.Proofs.Wrappers

/-!
This module contains the proofs about the host types of values that are passed back to the host: which
type the expression for a host type has, and just when it is the declared one.
-/

namespace Facade

open Data Host Outcome

namespace Host

/-- A host type as types are compared where they are arguments: by names, at every depth. -/
inductive TypeTerm where
  | mk (name : String) (arguments : List TypeTerm)
  deriving Repr

namespace HostType

mutual

/-- The type by its names alone. -/
def term : HostType → TypeTerm
  | mk _ name arguments _ => .mk name (terms arguments)

def terms : List HostType → List TypeTerm
  | [] => []
  | t :: ts => t.term :: terms ts

end

mutual

def isRegular : HostType → Bool
  | mk kind _ arguments _ => (kind == .applied || arguments.isEmpty) && areRegular arguments

def areRegular : List HostType → Bool
  | [] => true
  | t :: ts => t.isRegular && areRegular ts

end

end HostType

end Host

namespace Record

open Host HostType

/-- Whether a type is read from a text, with whatever is known of its null values. -/
def IsRead (enums : List String) (t : HostType) : Prop :=
  ∃ source plain nullable, typeNamed? enums source = some plain ∧ t = plain.withNullable nullable

mutual

theorem isRegular_typeOf (enums : List String) : ∀ s : Signature, (typeOf enums s).isRegular = true
  | .mk name [] => by
    have harguments := arguments_simpleType enums (fullName name)
    rw [typeOf]
    generalize simpleType enums (fullName name) = t at harguments
    obtain ⟨kind, name, arguments, nullable⟩ := t
    simp only [HostType.arguments] at harguments
    rw [harguments, isRegular, areRegular]
    simp
  | .mk name (a :: as) => by
    rw [typeOf, applied, isRegular, areRegular, isRegular_typeOf enums a, areRegular_typesOf enums as]
    rfl

theorem areRegular_typesOf (enums : List String) :
    ∀ ss : List Signature, areRegular (typesOf enums ss) = true
  | [] => rfl
  | s :: ss => by
    rw [typesOf, areRegular, isRegular_typeOf enums s, areRegular_typesOf enums ss]
    rfl

end

theorem IsRead.isRegular {enums : List String} {t : HostType} (h : IsRead enums t) :
    t.isRegular = true := by
  obtain ⟨source, plain, nullable, hplain, rfl⟩ := h
  have hregular : plain.isRegular = true := by
    unfold typeNamed? at hplain
    split at hplain
    . cases hplain
    . obtain ⟨signature, -, rfl⟩ := Option.map_eq_some_iff.mp hplain
      exact isRegular_typeOf enums signature
  obtain ⟨kind, name, arguments, nullable'⟩ := plain
  exact hregular

end Record

namespace Scala

def Collection.hostName : Collection → String
  | list => "java.util.List"
  | set => "java.util.Set"
  | map => "java.util.Map"

/-- The host classes whose values are taken for lists though they may be none. -/
def looseNames : List String :=
  ["java.util.Collection", "java.lang.Iterable"]

def returnedName (name : String) : String :=
  ((Collection.named? name).map Collection.hostName).getD name

theorem returnedName_of_mem {name : String} (h : name ∈ looseNames) :
    returnedName name = "java.util.List" := by
  have hnames : ∀ name ∈ looseNames, returnedName name = "java.util.List" := by decide
  exact hnames name h

theorem returnedName_of_not_mem {name : String} (h : name ∉ looseNames) :
    returnedName name = name := by
  unfold returnedName Collection.named?
  split
  . rfl
  . exact absurd (by decide) h
  . exact absurd (by decide) h
  . rfl
  . rfl
  . rfl

theorem list_ne_loose : ∀ name ∈ looseNames, "java.util.List" ≠ name := by
  decide

end Scala

namespace Host

open Scala

def TypeKind.isLoose (kind : TypeKind) (name : String) : Bool :=
  kind == .applied && looseNames.contains name

/-- The host class that values of a class are passed back as. -/
def TypeKind.returnedName (kind : TypeKind) (name : String) : String :=
  if kind = .applied then Scala.returnedName name else name

theorem TypeKind.returnedName_cases (kind : TypeKind) (name : String) :
    (kind.isLoose name = false ∧ kind.returnedName name = name) ∨
      (kind.isLoose name = true ∧ name ∈ looseNames ∧
        kind.returnedName name = "java.util.List") := by
  unfold isLoose returnedName
  by_cases hkind : kind = .applied
  . rw [if_pos hkind, hkind, beq_self_eq_true, Bool.true_and]
    by_cases hname : name ∈ looseNames
    . exact .inr ⟨List.contains_iff_mem.mpr hname, hname, returnedName_of_mem hname⟩
    . exact .inl ⟨by simpa using hname, returnedName_of_not_mem hname⟩
  . rw [if_neg hkind, beq_false_of_ne hkind, Bool.false_and]
    exact .inl ⟨rfl, rfl⟩

namespace HostType

mutual

/-- The type that a value of what stands for the type is passed back with. -/
def returned : HostType → TypeTerm
  | mk kind name arguments _ =>
    .mk (kind.returnedName name) (returnedAll arguments)

def returnedAll : List HostType → List TypeTerm
  | [] => []
  | t :: ts => t.returned :: returnedAll ts

end

mutual

/-- Whether the type or one of its arguments is a generic type that is taken for a list. -/
def holdsLoose : HostType → Bool
  | mk kind name arguments _ => kind.isLoose name || anyHoldsLoose arguments

/-- Whether one of some types holds such a type. -/
def anyHoldsLoose : List HostType → Bool
  | [] => false
  | t :: ts => t.holdsLoose || anyHoldsLoose ts

end

mutual

theorem returned_eq_term_iff : ∀ t : HostType, t.returned = t.term ↔ t.holdsLoose = false
  | mk kind name arguments nullable => by
    rw [returned, term, TypeTerm.mk.injEq, returnedAll_eq_terms_iff arguments, holdsLoose,
      Bool.or_eq_false_iff]
    refine and_congr_left fun _ => ?_
    obtain ⟨hloose, hname⟩ | ⟨hloose, hmem, hname⟩ := kind.returnedName_cases name
    . rw [hloose, hname]
      exact iff_of_true rfl rfl
    . rw [hloose, hname]
      exact iff_of_false (list_ne_loose name hmem) nofun

theorem returnedAll_eq_terms_iff : ∀ ts : List HostType,
    returnedAll ts = terms ts ↔ anyHoldsLoose ts = false
  | [] => by simp [returnedAll, terms, anyHoldsLoose]
  | t :: ts => by
    rw [returnedAll, terms, List.cons.injEq, returned_eq_term_iff t, returnedAll_eq_terms_iff ts,
      anyHoldsLoose, Bool.or_eq_false_iff]

end

end HostType

/-- Whether a value of one type may be passed where another type is declared: the types are the same, or
lists are passed for what may hold just the same elements. -/
def TypeTerm.Passes (given declared : TypeTerm) : Prop :=
  given = declared ∨ ∃ name ∈ looseNames, ∃ arguments,
    given = mk "java.util.List" arguments ∧ declared = mk name arguments

namespace HostType

theorem passes_iff (t : HostType) :
    t.returned.Passes t.term ↔ anyHoldsLoose t.arguments = false := by
  obtain ⟨kind, name, arguments, nullable⟩ := t
  rw [HostType.arguments, ← returnedAll_eq_terms_iff]
  constructor
  . -- the arguments are the same either way
    rintro (hsame | ⟨loose, -, elements, hgiven, hdeclared⟩)
    . exact (TypeTerm.mk.inj hsame).2
    . exact (TypeTerm.mk.inj hgiven).2.trans (TypeTerm.mk.inj hdeclared).2.symm
  . intro harguments
    rw [returned, term, harguments]
    obtain ⟨-, hname⟩ | ⟨-, hmem, hname⟩ := kind.returnedName_cases name
    . rw [hname]
      exact .inl rfl
    . rw [hname]
      exact .inr ⟨name, hmem, terms arguments, rfl, rfl⟩

end HostType

end Host

namespace Catalog

/-- The class whose wrapper is referred to by a text in a package. -/
def classOf? (catalog : Catalog) (package text : String) : Option String :=
  (catalog.entries.find? fun e => Scala.reference e.2 package == text).map Prod.fst

theorem IsLegible.classOf?_reference {catalog : Catalog} (h : catalog.IsLegible) {name : String}
    {entry : Entry} (hentry : catalog.get? name = some entry) (package : String) :
    catalog.classOf? package (Scala.reference entry package) = some name := by
  have hmem := Dictionary.mem_of_get? hentry
  cases hfind : catalog.entries.find? fun e =>
      Scala.reference e.2 package == Scala.reference entry package with
  | none =>
    rw [List.find?_eq_none] at hfind
    exact absurd (beq_self_eq_true _) (hfind _ hmem)
  | some found =>
    obtain ⟨name', entry'⟩ := found
    have hentry' : catalog.get? name' = some entry' :=
      h.wellFormed.ordered.get?_of_mem (List.mem_of_find?_eq_some hfind)
    have hreference : Scala.reference entry' package = Scala.reference entry package :=
      beq_iff_eq.mp (List.find?_some hfind :)
    rw [classOf?, hfind, Option.map_some, h.eq_of_reference hentry' hentry hreference]

end Catalog

namespace Scala

/-- The host type of the values of a type, if these are values of the host. `outside` tells which type a
text from settings stands for. -/
def ExprType.term? (catalog : Catalog) (package : String) (outside : String → TypeTerm) :
    ExprType → Option TypeTerm
  | scalar s => some (.mk s.plainName [])
  | boxed s => s.boxedName?.map fun name => .mk name []
  | external expression => some (outside expression)
  | hostConstant name => (catalog.classOf? package name).map fun name => .mk name []
  | hostObject name => (catalog.classOf? package name).map fun name => .mk name []
  | list .host element =>
    (element.term? catalog package outside).map fun t => .mk (Collection.hostName .list) [t]
  | set .host element =>
    (element.term? catalog package outside).map fun t => .mk (Collection.hostName .set) [t]
  | map .host key value =>
    (key.term? catalog package outside).bind fun k =>
      (value.term? catalog package outside).map fun v => .mk (Collection.hostName .map) [k, v]
  | _ => none

/-- Whether the texts that settings give for classes stand for just these classes. -/
def Fits (catalog : Catalog) (outside : String → TypeTerm) (name : String) : Prop :=
  catalog.get? name = none → ∀ expression, catalog.external? name = some expression →
    outside expression = .mk name []

section

variable {catalog : Catalog} {package : String} {outside : String → TypeTerm}

theorem term?_apply (collection : Collection) {types : List ScalaType} {terms : List TypeTerm}
    (hterms : types.map (fun type => type.hostType.term? catalog package outside) =
      terms.map some) (hlength : types.length = collection.arity) :
    (collection.apply types).hostType.term? catalog package outside =
      some (.mk collection.hostName terms) := by
  have hsame : terms.length = types.length := by
    have heq := congrArg List.length hterms
    rw [List.length_map, List.length_map] at heq
    exact heq.symm
  rw [hlength] at hsame
  cases collection with
  | list | set =>
    obtain ⟨element, rfl⟩ := List.length_eq_one_iff.mp hlength
    obtain ⟨t, rfl⟩ := List.length_eq_one_iff.mp hsame
    have helement := List.singleton_inj.mp hterms
    simp only [Collection.apply, List.head?_cons, Option.getD_some, ScalaType.hostType,
      ExprType.term?, helement, Option.map_some]
  | map =>
    obtain ⟨key, value, rfl⟩ := List.length_eq_two.mp hlength
    obtain ⟨k, v, rfl⟩ := List.length_eq_two.mp hsame
    obtain ⟨hkey, hrest⟩ := List.cons_eq_cons.mp hterms
    have hvalue := List.singleton_inj.mp hrest
    simp only [Collection.apply, List.head?_cons, List.drop_one, List.tail_cons, Option.getD_some,
      ScalaType.hostType, ExprType.term?, hkey, hvalue, Option.map_some, Option.bind_some]

theorem term?_wrapperType (hlegible : catalog.IsLegible) {name : String} {entry : Catalog.Entry}
    (hentry : catalog.get? name = some entry) :
    (wrapperType entry package).hostType.term? catalog package outside = some (.mk name []) := by
  have hclass := hlegible.classOf?_reference hentry package
  unfold wrapperType
  split
  . rw [ScalaType.hostType, ExprType.term?, hclass]
    rfl
  . rw [ScalaType.hostType, ExprType.term?, hclass]
    rfl

theorem term?_namedType? (hlegible : catalog.IsLegible) {name : String} {type : ScalaType}
    (hfits : Fits catalog outside name) (h : namedType? catalog package name = some type) :
    type.hostType.term? catalog package outside = some (.mk name []) := by
  unfold namedType? at h
  split at h
  . next entry hentry =>
    cases h
    exact term?_wrapperType hlegible hentry
  . next hnone =>
    obtain ⟨expression, hexpression, rfl⟩ := Option.map_eq_some_iff.mp h
    rw [ScalaType.hostType, ExprType.term?, hfits hnone expression hexpression]

theorem returnedName_of_named? {name : String} {collection : Collection}
    (h : Collection.named? name = some collection) : returnedName name = collection.hostName := by
  rw [returnedName, h]
  rfl

theorem boxedName?_of_ofBoxed? {name : String} {s : Scalar} (h : Scalar.ofBoxed? name = some s) :
    s.boxedName? = some name ∧ s.isPrimitive = true := by
  have hname := Scalar.ofBoxed?_eq_some_iff.mp h
  refine ⟨hname, ?_⟩
  cases s with
  | string => cases hname
  | _ => rfl

theorem length_typesFor {ts : List HostType} {types : List ScalaType}
    (h : typesFor catalog package ts = .ok types) : types.length = ts.length := by
  induction ts generalizing types with
  | nil =>
    cases h
    rfl
  | cons t ts ih =>
    unfold typesFor at h
    obtain ⟨first, -, h⟩ := bind_eq_ok_iff.mp h
    obtain ⟨rest, hrest, h⟩ := bind_eq_ok_iff.mp h
    cases h
    rw [List.length_cons, List.length_cons, ih hrest]

theorem term?_named (hlegible : catalog.IsLegible) {name : String} {host : HostType}
    {type : ScalaType} (hfits : Fits catalog outside name)
    (h : named catalog package name host = .ok type) :
    type.hostType.term? catalog package outside = some (.mk name []) := by
  unfold named at h
  cases hname : namedType? catalog package name with
  | none =>
    rw [hname] at h
    cases h
  | some found =>
    rw [hname] at h
    cases h
    exact term?_namedType? hlegible hfits hname

theorem term?_simple (hlegible : catalog.IsLegible) {kind : TypeKind} {name : String}
    {nullable : Bool} {type : ScalaType} (hkind : kind ≠ .applied)
    (hfits : Fits catalog outside name)
    (h : typeFor catalog package (.mk kind name [] nullable) = .ok type) :
    type.hostType.term? catalog package outside = some (.mk name []) := by
  unfold typeFor at h
  cases kind with
  | applied => exact absurd rfl hkind
  | enumeration | object => exact term?_named hlegible hfits h
  | plain =>
    cases hs : Scalar.ofPlain? name with
    | none =>
      rw [hs] at h
      cases h
    | some s =>
      rw [hs] at h
      cases h
      simp only [ScalaType.hostType, Bool.false_and, Bool.false_eq_true, if_false, ExprType.term?,
        Scalar.ofPlain?_eq_some_iff.mp hs]
  | boxed =>
    cases hs : Scalar.ofBoxed? name with
    | none =>
      rw [hs] at h
      cases h
    | some s =>
      rw [hs] at h
      cases h
      obtain ⟨hname, hprimitive⟩ := boxedName?_of_ofBoxed? hs
      simp only [ScalaType.hostType, Bool.true_and, hprimitive, if_true, ExprType.term?, hname,
        Option.map_some]

mutual

/-- The host values that become values of the type for a host type have the type that it is passed back
with. -/
theorem term?_typeFor (hlegible : catalog.IsLegible) : ∀ (t : HostType) (type : ScalaType),
    t.isRegular = true → (∀ name, t.mentions name = true → Fits catalog outside name) →
      typeFor catalog package t = .ok type →
        type.hostType.term? catalog package outside = some t.returned
  | .mk kind name arguments nullable, type, hregular, hfits, h => by
    rw [HostType.isRegular, Bool.and_eq_true, Bool.or_eq_true, beq_iff_eq] at hregular
    obtain ⟨hkind, harguments⟩ := hregular
    by_cases happlied : kind = .applied
    . subst happlied
      unfold typeFor at h
      dsimp only at h
      split at h
      . cases h
      . next collection hcollection =>
        obtain ⟨types, htypes, h⟩ := bind_eq_ok_iff.mp h
        cases h
        obtain ⟨hnamed, harity⟩ := Option.filter_eq_some_iff.mp hcollection
        have hterms := terms?_typesFor hlegible arguments types harguments
          (fun name hname => hfits name (by simp [HostType.mentions, hname])) htypes
        have hlength := (length_typesFor htypes).trans (beq_iff_eq.mp harity).symm
        rw [term?_apply collection hterms hlength, HostType.returned, TypeKind.returnedName,
          if_pos rfl, returnedName_of_named? hnamed]
    . -- a type that is not generic is passed back by its name alone
      obtain rfl := List.isEmpty_iff.mp (hkind.resolve_left happlied)
      have hown := hfits name (by simp [HostType.mentions])
      rw [term?_simple hlegible happlied hown h, HostType.returned, TypeKind.returnedName,
        if_neg happlied]
      rfl

theorem terms?_typesFor (hlegible : catalog.IsLegible) :
    ∀ (ts : List HostType) (types : List ScalaType), HostType.areRegular ts = true →
      (∀ name, HostType.anyMentions name ts = true → Fits catalog outside name) →
        typesFor catalog package ts = .ok types →
          types.map (fun type => type.hostType.term? catalog package outside) =
            (HostType.returnedAll ts).map some
  | [], types, _, _, h => by
    cases h
    rfl
  | t :: ts, types, hregular, hfits, h => by
    rw [HostType.areRegular, Bool.and_eq_true] at hregular
    unfold typesFor at h
    obtain ⟨first, hfirst, h⟩ := bind_eq_ok_iff.mp h
    obtain ⟨rest, hrest, h⟩ := bind_eq_ok_iff.mp h
    cases h
    rw [List.map_cons, HostType.returnedAll, List.map_cons]
    congr 1
    . refine term?_typeFor hlegible t first hregular.1 (fun name hname => hfits name ?_) hfirst
      rw [HostType.anyMentions, hname, Bool.true_or]
    . refine terms?_typesFor hlegible ts rest hregular.2 (fun name hname => hfits name ?_) hrest
      rw [HostType.anyMentions, hname, Bool.or_true]

end

end

end Scala

namespace Batch

open Scala

section

variable {text : String} {settings : Settings} {enums : List String} {records : List Record}
variable {keep : String → Bool} {package : String} {outside : String → TypeTerm} {t : HostType}
variable {type : ScalaType} {x : String}

/-- What is passed back to the host for a type that was read is a value of this type, but that lists
stand for all that was taken for a list. So it will do where the type is declared just if nothing in
the arguments of the type was taken for a list. The texts that settings give for classes are taken to
stand for them, and the name of the value does not end like a view of a host collection. -/
theorem toHost_returned (hparse : Settings.parse text = .ok settings)
    (hread : Record.IsRead enums t)
    (htype : typeFor (Generator.remaining settings enums records keep) package t = .ok type)
    (hfits : ∀ name, t.mentions name = true →
      Fits (Generator.remaining settings enums records keep) outside name)
    (w : World) (hx : IsPlain (.code x)) :
    ∃ u f, (toHost type (.code x)).meaning? w [(x, type.exprType)] = some ⟨u, f⟩ ∧
      u.term? (Generator.remaining settings enums records keep) package outside =
        some t.returned ∧
      (t.returned = t.term ↔ t.holdsLoose = false) ∧
      (t.returned.Passes t.term ↔ HostType.anyHoldsLoose t.arguments = false) := by
  have hlegible := isLegible_remaining hparse enums records keep
  have hmeaning := ScalaType.converts_toHostAt type 0 (.code x) hx _ _
    (meaning?_code (w := w) x type.exprType [])
  exact ⟨_, _, hmeaning, term?_typeFor hlegible t type hread.isRegular hfits htype,
    t.returned_eq_term_iff, t.passes_iff⟩

end

def idText : String :=
  "[external_types]\n\"java.util.UUID\" = \"java.util.UUID\"\n"

def idSettings : Settings :=
  { Settings.standard with externalTypes := [("java.util.UUID", "java.util.UUID")] }

theorem parse_idText : Settings.parse idText = .ok idSettings := by
  have htree : Toml.parse idText = some (.ofEntries
      [("external_types", .ofEntries [("java.util.UUID", .text "java.util.UUID")])]) := by
    rw [Toml.parse, idText]
    simp only [String.reduceToList]
    with_unfolding_all rfl
  rw [Settings.parse, htree]
  rfl

def modeCatalog : Catalog :=
  Generator.remaining idSettings ["p.Mode"] [enumRecord "p.Mode" ["ON"]] fun _ => true

def modesType : HostType :=
  .applied "java.lang.Iterable"
    [.applied "java.util.Map" [.object "java.util.UUID", .enumeration "p.Mode"]]

def modesTerm : TypeTerm :=
  .mk "java.util.Map" [.mk "java.util.UUID" [], .mk "p.Mode" []]

theorem fits_modeCatalog (name : String) : Fits modeCatalog (fun text => .mk text []) name := by
  intro _ expression hexpression
  have htypes : modeCatalog.externalTypes = [("java.util.UUID", "java.util.UUID")] := by
    rfl
  rw [Catalog.external?, htypes] at hexpression
  obtain ⟨rfl, rfl⟩ := Prod.mk.inj (List.mem_singleton.mp (Dictionary.mem_of_get? hexpression))
  rfl

theorem toHost_returned_modes :
    ∃ type u f, Record.IsRead ["p.Mode"] modesType ∧
      typeFor modeCatalog "p.wrappers" modesType = .ok type ∧
      (toHost type (.code "modes")).meaning? writtenWorld [("modes", type.exprType)] =
        some ⟨u, f⟩ ∧
      u.term? modeCatalog "p.wrappers" (fun text => .mk text []) =
        some (.mk "java.util.List" [modesTerm]) ∧
      modesType.term = .mk "java.lang.Iterable" [modesTerm] ∧
      (TypeTerm.mk "java.util.List" [modesTerm]).Passes (.mk "java.lang.Iterable" [modesTerm]) := by
  have hread : Record.IsRead ["p.Mode"] modesType :=
    ⟨"java.lang.Iterable<java.util.Map<java.util.UUID, p.Mode>>", modesType, true, rfl, rfl⟩
  have htype : (typeFor modeCatalog "p.wrappers" modesType).toOption =
      some (.list (.map (.external "java.util.UUID") (.enumeration "Mode" "p.wrappers.Mode"))) := by
    rfl
  rw [toOption_eq_some_iff] at htype
  obtain ⟨u, f, hmeaning, hterm, -, hpasses⟩ := toHost_returned parse_idText hread htype
    (fun name _ => fits_modeCatalog name) writtenWorld (x := "modes") (isPlain_code (by decide))
  exact ⟨_, u, f, hread, htype, hmeaning, hterm, rfl, hpasses.mpr (by decide)⟩

def groupsType : HostType :=
  .applied "java.util.List"
    [.applied "java.util.Collection" [(HostType.plain .string)]]

/-- A list of collections is passed back as a list of lists, which is not what is declared. -/
theorem not_passes_groups :
    Record.IsRead [] groupsType ∧
      (typeFor (Catalog.ofClasses Settings.standard []).1 "p.wrappers" groupsType).toOption =
        some (.list (.list (.scalar .string false))) ∧
      (toHost (.list (.list (.scalar .string false))) (.code "groups")).render =
        "groups.map(e0 => e0.asJava).asJava" ∧
      groupsType.term =
        .mk "java.util.List" [.mk "java.util.Collection" [.mk "java.lang.String" []]] ∧
      (ScalaType.list (.list (.scalar .string false))).hostType.term?
          (Catalog.ofClasses Settings.standard []).1 "p.wrappers" (fun text => .mk text []) =
        some (.mk "java.util.List" [.mk "java.util.List" [.mk "java.lang.String" []]]) ∧
      ¬ (TypeTerm.mk "java.util.List" [.mk "java.util.List" [.mk "java.lang.String" []]]).Passes
        groupsType.term := by
  have hread : Record.IsRead [] groupsType :=
    ⟨"java.util.List<java.util.Collection<String>>", groupsType, true, rfl, rfl⟩
  refine ⟨hread, by decide, by decide, rfl, rfl, ?_⟩
  intro hpasses
  have hnone := groupsType.passes_iff.mp hpasses
  revert hnone
  decide

end Batch

end Facade
