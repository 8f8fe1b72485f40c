import Facade.Proofs.Conversion.Inverse
import Facade.Proofs.Hygiene
import Facade.Proofs.Nullability
import Facade.Proofs.Resolution

/-!
This module contains the proof that what is read from a field can be assigned to it again. Two methods
with types and annotations of their own stand behind the two members, and yet both members have the type
of the field: methods are bound by the shape of their types, which is all that the types of members are
made from, and whether a value may be absent is a matter of the field.
-/

namespace Facade.Record

open Host Matching Outcome Scala ClassWrapper Settings

variable {markers : Markers} {enums : List String} {r : Record}

/-- The type that members of a wrapper have for a field. -/
def Place.fieldType? (place : Place) (markers : Markers) (r : Record) (f : Field) :
    Option ScalaType := do
  let host ← typeNamed? place.enums f.type
  let mapped ← (typeFor place.catalog place.package host).toOption
  return withNullable (r.fieldMayBeEmpty markers place.enums f) mapped

theorem sameShape_withNullable_right (t u : HostType) (nullable : Bool) :
    t.sameShape (u.withNullable nullable) = t.sameShape u := by
  cases t
  cases u
  rfl

theorem fieldType?_of_hasProperty {context : Outline.Context} {f : Field}
    {property : String × HostType} (hproperty : f.hasProperty enums property = true)
    {nullable : Bool} {type : Outline.MemberType}
    (htype : type.Stands context (property.2.withNullable nullable)
      (r.fieldMayBeEmpty markers enums f)) :
    Place.fieldType? ⟨enums, context.catalog, context.package⟩ markers r f = some type.target := by
  rw [Field.hasProperty, Bool.and_eq_true] at hproperty
  obtain ⟨host, hhost, hshape⟩ := (Option.any_eq_true _ _).mp hproperty.2
  have hsame : host.sameShape (property.2.withNullable nullable) = true := by
    rw [sameShape_withNullable_right, hshape]
  have hmapped := mapError_typeFor_of_sameShape context.catalog context.package _ _ hsame
  rw [htype.mapped, Except.mapError] at hmapped
  have hfield : typeFor context.catalog context.package host = .ok type.mapped :=
    mapError_eq_ok_iff.mp hmapped
  simp [Place.fieldType?, hhost, hfield, Except.toOption, htype.target]

theorem exists_mem_fieldReaders {f : Field} (hf : f ∈ r.instanceFields) {m : Method}
    (hm : m ∈ r.publicMethods) (hreads : f.isReadBy enums m = true) :
    ∃ first, (f, first) ∈ r.fieldReaders enums := by
  have hreader : m ∈ r.readers enums := by
    obtain ⟨property, hproperty, -⟩ := (Option.any_eq_true _ _).mp hreads
    exact List.mem_filter.mpr ⟨hm, by rw [hproperty]; rfl⟩
  obtain ⟨first, hfirst⟩ := Option.isSome_iff_exists.mp
    (List.find?_isSome.mpr ⟨m, hreader, hreads⟩)
  exact ⟨first, mem_firsts.mpr ⟨hf, hfirst⟩⟩

theorem exists_mem_fieldAssigners {f : Field} (hf : f ∈ r.instanceFields) {m : Method}
    (hm : m ∈ r.publicMethods) (hassigns : f.isAssignedBy enums m = true) :
    ∃ first, (f, first) ∈ r.fieldAssigners enums := by
  obtain ⟨first, hfirst⟩ := Option.isSome_iff_exists.mp (List.find?_isSome.mpr ⟨m, hm, hassigns⟩)
  exact ⟨first, mem_firsts.mpr ⟨hf, hfirst⟩⟩

section

variable {catalog : Catalog} {constructors : List Outline.Constructor}
variable {bound computed : List Outline.Getter} {setters : List Outline.Setter}

theorem Outlined.fieldType?_of_reads {host : HostClass} {package : String}
    (hnames : (r.instanceFields.map Field.name).Nodup)
    (hbound : Bound markers enums r.name r.instanceFields host.constructors r.publicMethods host)
    (h : Outlined markers enums r ⟨catalog, host, package⟩ constructors bound computed setters) :
    List.Forall₂ (fun (f, _) g => g.field = some f.name ∧
        Place.fieldType? ⟨enums, catalog, package⟩ markers r f = some g.type.target)
      (r.fieldReaders enums) bound := by
  have hreads : ∀ read ∈ r.fieldReaders enums, read.1.isReadBy enums read.2 = true :=
    fun read hread => List.find?_some (mem_firsts.mp hread).2
  apply ((List.forall₂_and_left _ _).mpr ⟨hreads, h.bound⟩).imp
  rintro ⟨f, m⟩ g ⟨hread, hf, d, hdescribed, hgetter, houtlines⟩
  refine ⟨houtlines.field.trans (by simpa using List.find?_some hgetter), ?_⟩
  obtain ⟨⟨name, type⟩, hproperty, hfor⟩ := (Option.any_eq_true _ _).mp hread
  obtain ⟨plain, hplain, hreturns⟩ := hdescribed.returns
  rw [Method.typeNamed?_of_read? hproperty, Option.some_inj] at hplain
  have hstands := houtlines.type
  rw [hreturns, ← hplain, hbound.getterNullable_eq hnames hf hgetter] at hstands
  exact fieldType?_of_hasProperty hfor hstands

theorem Outlined.fieldType?_of_assigns {host : HostClass} {package : String}
    (hnames : (r.instanceFields.map Field.name).Nodup)
    (hbound : Bound markers enums r.name r.instanceFields host.constructors r.publicMethods host)
    (h : Outlined markers enums r ⟨catalog, host, package⟩ constructors bound computed setters) :
    List.Forall₂ (fun (f, _) s => s.field = f.name ∧
        Place.fieldType? ⟨enums, catalog, package⟩ markers r f = some s.type.target)
      (r.fieldAssigners enums) setters := by
  have hassigns : ∀ assigned ∈ r.fieldAssigners enums,
      assigned.1.isAssignedBy enums assigned.2 = true :=
    fun assigned hassigned => List.find?_some (mem_firsts.mp hassigned).2
  apply ((List.forall₂_and_left _ _).mpr ⟨hassigns, h.setters⟩).imp
  rintro ⟨f, m⟩ s ⟨hassigned, hf, d, hdescribed, hsetter, houtlines⟩
  refine ⟨houtlines.field, ?_⟩
  obtain ⟨⟨name, type⟩, hproperty, hfor⟩ := (Option.any_eq_true _ _).mp hassigned
  obtain ⟨p, hparameters, -, htype⟩ := Method.exists_of_assigned? hproperty
  obtain ⟨p', plain, hparameters', hplain, hparameter⟩ := hdescribed.parameter
  rw [hparameters, List.cons.injEq] at hparameters'
  rw [← hparameters'.1, htype, Option.some_inj] at hplain
  obtain ⟨t, ht, hstands⟩ := houtlines.type
  rw [hparameter, List.cons.injEq] at ht
  rw [← ht.1, ← hplain, hbound.setterNullable_eq hnames hf hsetter] at hstands
  exact fieldType?_of_hasProperty hfor hstands

end

/-- The members that read and assign a field have one type, so that what is read can be assigned again.
Every value that the host gives for the field is read as a value of this type, and assigned as the value
that it was. Declared exceptions aside, that is the type of the results of the one and of the parameter
of the other. -/
theorem read_values_assignable (markers : Markers) (enums : List String) (r : Record) (c : HostClass)
    (catalog : Catalog) (o : Outline) (constructors : List Outline.Constructor)
    (getters : List Outline.Getter) (setters : List Outline.Setter) (w : World)
    (hdescribe : describe markers enums r = .ok c) (houtline : Outline.ofClass catalog c = .ok o)
    (hbody : o.body = .members constructors getters setters) :
    (∀ f ∈ r.instanceFields, ∀ m ∈ r.publicMethods, f.isReadBy enums m = true →
      ∀ m' ∈ r.publicMethods, f.isAssignedBy enums m' = true →
        ∃ g ∈ getters, ∃ s ∈ setters, g.field = some f.name ∧ s.field = f.name) ∧
    ∀ g ∈ getters, ∀ s ∈ setters, g.field = some s.field →
      g.type.target = s.type.target ∧
      ∀ held : g.type.target.hostType.Carrier w, ∃ value : s.type.target.exprType.Carrier w,
        (getterValue g).eval? w ("underlying." ++ escapePath g.hostMethod ++ "()")
            ⟨g.type.target.hostType, held⟩ = some ⟨s.type.target.exprType, value⟩ ∧
        (setterValue s).eval? w assigned ⟨s.type.target.exprType, value⟩ =
          some ⟨g.type.target.hostType, held⟩ := by
  have hclass := isEnum_of_describe hdescribe (named_of_ofClass houtline hbody).1
  obtain ⟨hnames, -, hbound⟩ := bound_of_describe hclass hdescribe
  obtain ⟨_, bound, computed, _, hbody', hmembers⟩ := outlined_of_ofClass hclass hdescribe houtline
  rw [hbody, Outline.Body.members.injEq] at hbody'
  obtain ⟨rfl, rfl, rfl⟩ := hbody'
  have hreads := hmembers.fieldType?_of_reads hnames hbound
  have hassigns := hmembers.fieldType?_of_assigns hnames hbound
  constructor
  . intro f hf m hm hread m' hm' hassigned
    obtain ⟨first, hfirst⟩ := exists_mem_fieldReaders hf hm hread
    obtain ⟨first', hfirst'⟩ := exists_mem_fieldAssigners hf hm' hassigned
    obtain ⟨g, hg, hgetter⟩ := exists_of_mem_left hreads hfirst
    obtain ⟨s, hs, hsetter⟩ := exists_of_mem_left hassigns hfirst'
    exact ⟨g, List.mem_append_left _ hg, s, hs, hgetter.1, hsetter.1⟩
  . intro g hg s hs hfield
    have htarget : g.type.target = s.type.target := by
      have hg : g ∈ bound := by
        obtain hg | hg := List.mem_append.mp hg
        . exact hg
        . obtain ⟨m, -, d, -, hcomputed, houtlines⟩ := exists_of_mem_right hmembers.computed hg
          rw [houtlines.field, hcomputed] at hfield
          cases hfield
      obtain ⟨⟨f, m⟩, hread, hgetter, htype⟩ := exists_of_mem_right hreads hg
      obtain ⟨⟨f', m'⟩, hassigned, hsetter, htype'⟩ := exists_of_mem_right hassigns hs
      have hname : f.name = f'.name := by
        rw [hgetter, hsetter] at hfield
        exact Option.some_inj.mp hfield
      obtain rfl := List.inj_on_of_nodup_map hnames (mem_firsts.mp hread).1
        (mem_firsts.mp hassigned).1 hname
      exact Option.some_inj.mp (htype.symm.trans htype')
    refine ⟨htarget, ?_⟩
    rw [getterValue, setterValue, ← htarget]
    intro held
    have hassigned : IsPlain (.code assigned) := isPlain_code (by decide)
    refine ⟨g.type.target.valueEquiv w held, g.type.target.eval?_fromHost _ held, ?_⟩
    rw [g.type.target.eval?_toHost hassigned, Equiv.symm_apply_apply]

def fieldTypes (o : Outline) : List (Option String × String) :=
  match o.body with
  | .enumeration _ => []
  | .members _ getters setters =>
    getters.map (fun g => (g.field, g.type.target.render)) ++
      setters.map (fun s => (some s.field, s.type.target.render))

-- The parameter of `setNote` is annotated otherwise than the field, and so is the result of `getNick`.
theorem profileRecord_assignable :
    ∃ c o constructors getters setters, describe .standard [] profileRecord = .ok c ∧
      Outline.ofClass ⟨[("p.Profile", ⟨"p.Profile", "p", "Profile", false⟩)], []⟩ c = .ok o ∧
      o.body = .members constructors getters setters ∧
      fieldTypes o = [(some "name", "String"), (some "note", "Option[String]"),
        (some "nick", "String"), (some "size", "Int"), (none, "String"), (none, "Option[String]"),
        (some "note", "Option[String]"), (some "nick", "String")] ∧
      ∃ g ∈ getters, ∃ s ∈ setters, g.field = some "note" ∧ g.type.target = s.type.target := by
  have hrun : (outlineOf .standard []
      ⟨[("p.Profile", ⟨"p.Profile", "p", "Profile", false⟩)], []⟩ profileRecord).map fieldTypes =
        .ok [(some "name", "String"), (some "note", "Option[String]"),
          (some "nick", "String"), (some "size", "Int"), (none, "String"), (none, "Option[String]"),
          (some "note", "Option[String]"), (some "nick", "String")] := by decide +kernel
  obtain ⟨c, o, hdescribe, houtline, htypes⟩ := exists_outline_of_map hrun
  cases hbody : o.body with
  | enumeration constants =>
    rw [fieldTypes, hbody] at htypes
    cases htypes
  | members constructors getters setters =>
    obtain ⟨hexists, hassignable⟩ := read_values_assignable .standard [] profileRecord c _ o
      constructors getters setters writtenWorld hdescribe houtline hbody
    obtain ⟨g, hg, s, hs, hgetter, hsetter⟩ := hexists ⟨"note", "String", [], []⟩ (by decide +kernel)
      (annotatedGetter "getNote" []) (by decide +kernel) (by decide +kernel)
      (annotatedSetter "setNote" ["lombok.NonNull"]) (by decide +kernel) (by decide +kernel)
    refine ⟨c, o, constructors, getters, setters, hdescribe, houtline, hbody, htypes, g, hg, s, hs,
      hgetter, ?_⟩
    exact (hassignable g hg s hs (by rw [hgetter, hsetter])).1

end Facade.Record
