import Facade.Proofs.Types
import Facade.Scala.Wrapper

/-!
This module contains the proofs that compare the outlines of one class against two catalogs. An
outline depends on a catalog only through the wrapper of the class itself and through the types of
its members, so whatever holds of these from one catalog to the other holds of the outlines.
-/

namespace Facade.Scala

open Host Outcome

variable {R : Comparison} {catalog catalog' : Catalog} {host : HostClass} {package : String}

namespace Outline

theorem memberType_eq (context : Context) (member : String) (t : HostType) (nullable : Bool) :
    memberType context member t nullable =
      (typeFor context.catalog context.package t).mapError
          (fun unresolved => .refused (.unresolved member unresolved.render)) >>= fun mapped =>
        .ok { host := t, mapped, target := withNullable nullable mapped, nullable } := by
  unfold memberType typeForMember
  cases typeFor context.catalog context.package t <;> rfl

theorem memberType_compare (hR : Compatible R) {t : HostType}
    (h : R _ _ (typeFor catalog package t) (typeFor catalog' package t)) (member : String)
    (nullable : Bool) :
    R _ _ (memberType ⟨catalog, host, package⟩ member t nullable)
      (memberType ⟨catalog', host, package⟩ member t nullable) := by
  rw [memberType_eq, memberType_eq]
  apply hR.bind
  . exact hR.mapError _ h
  . exact fun _ => hR.refl _

theorem parameters_compare (hR : Compatible R) (index : Nat) (pool : NamePool)
    {ps : List HostClass.Parameter}
    (h : ∀ p ∈ ps, R _ _ (typeFor catalog package p.type) (typeFor catalog' package p.type)) :
    R _ _ (parameters ⟨catalog, host, package⟩ index pool ps)
      (parameters ⟨catalog', host, package⟩ index pool ps) := by
  induction ps generalizing pool with
  | nil =>
    unfold parameters
    exact hR.refl _
  | cons p ps ih =>
    unfold parameters
    apply hR.bind (hR.refl _)
    rintro ⟨name, pool⟩
    apply hR.bind
    . exact memberType_compare hR (h p List.mem_cons_self) _ _
    . intro type
      apply hR.bind
      . exact ih pool fun p hp => h p (List.mem_cons_of_mem _ hp)
      . exact fun _ => hR.refl _

theorem constructors_compare (hR : Compatible R) (index : Nat) {cs : List HostClass.Constructor}
    (h : ∀ c ∈ cs, ∀ p ∈ c.parameters,
      R _ _ (typeFor catalog package p.type) (typeFor catalog' package p.type)) :
    R _ _ (constructors ⟨catalog, host, package⟩ index cs)
      (constructors ⟨catalog', host, package⟩ index cs) := by
  induction cs generalizing index with
  | nil =>
    unfold constructors
    exact hR.refl _
  | cons c cs ih =>
    unfold constructors
    apply hR.bind
    . exact parameters_compare hR index .empty (h c List.mem_cons_self)
    . intro first
      apply hR.bind
      . exact ih (index + 1) fun c hc => h c (List.mem_cons_of_mem _ hc)
      . exact fun _ => hR.refl _

theorem getter_compare (hR : Compatible R) (pool : NamePool) (property : String)
    {m : HostClass.Method}
    (h : R _ _ (typeFor catalog package m.returns) (typeFor catalog' package m.returns)) :
    R _ _ (getter ⟨catalog, host, package⟩ pool property m)
      (getter ⟨catalog', host, package⟩ pool property m) := by
  unfold getter
  apply hR.bind (hR.refl _)
  rintro ⟨name, pool⟩
  apply hR.bind
  . exact memberType_compare hR h _ _
  . exact fun _ => hR.refl _

theorem fieldGetters_compare (hR : Compatible R) (pool : NamePool) (fs : List HostClass.Field)
    (h : ∀ m ∈ host.getters,
      R _ _ (typeFor catalog package m.returns) (typeFor catalog' package m.returns)) :
    R _ _ (fieldGetters ⟨catalog, host, package⟩ pool fs)
      (fieldGetters ⟨catalog', host, package⟩ pool fs) := by
  induction fs generalizing pool with
  | nil =>
    unfold fieldGetters
    exact hR.refl _
  | cons f fs ih =>
    unfold fieldGetters
    dsimp only
    split
    . exact hR.refl _
    . next m hm =>
      apply hR.bind
      . exact getter_compare hR pool f.name (h m (List.mem_of_find?_eq_some hm))
      . rintro ⟨first, pool⟩
        apply hR.bind
        . exact ih pool
        . exact fun _ => hR.refl _

theorem computedGetters_compare (hR : Compatible R) (pool : NamePool) {ms : List HostClass.Method}
    (h : ∀ m ∈ ms, R _ _ (typeFor catalog package m.returns) (typeFor catalog' package m.returns)) :
    R _ _ (computedGetters ⟨catalog, host, package⟩ pool ms)
      (computedGetters ⟨catalog', host, package⟩ pool ms) := by
  induction ms generalizing pool with
  | nil =>
    unfold computedGetters
    exact hR.refl _
  | cons m ms ih =>
    unfold computedGetters
    apply hR.bind
    . exact getter_compare hR pool (propertyOf m) (h m List.mem_cons_self)
    . rintro ⟨first, pool⟩
      apply hR.bind
      . exact ih pool fun m hm => h m (List.mem_cons_of_mem _ hm)
      . exact fun _ => hR.refl _

theorem setter_compare (hR : Compatible R) (pool : NamePool) (field : String)
    {m : HostClass.Method}
    (h : ∀ t ∈ m.parameters, R _ _ (typeFor catalog package t) (typeFor catalog' package t)) :
    R _ _ (setter ⟨catalog, host, package⟩ pool field m)
      (setter ⟨catalog', host, package⟩ pool field m) := by
  unfold setter
  split
  . next parameter hparameter =>
    apply hR.bind (hR.refl _)
    rintro ⟨name, pool⟩
    apply hR.bind
    . exact memberType_compare hR (h parameter (by simp [hparameter])) _ _
    . exact fun _ => hR.refl _
  . exact hR.refl _

theorem setters_compare (hR : Compatible R) (pool : NamePool) (fs : List HostClass.Field)
    (h : ∀ m ∈ host.setters, ∀ t ∈ m.parameters,
      R _ _ (typeFor catalog package t) (typeFor catalog' package t)) :
    R _ _ (setters ⟨catalog, host, package⟩ pool fs)
      (setters ⟨catalog', host, package⟩ pool fs) := by
  induction fs generalizing pool with
  | nil =>
    unfold setters
    exact hR.refl _
  | cons f fs ih =>
    unfold setters
    dsimp only
    split
    . exact hR.refl _
    . next m hm =>
      apply hR.bind
      . exact setter_compare hR pool f.name (h m (List.mem_of_find?_eq_some hm))
      . rintro ⟨first, pool⟩
        apply hR.bind
        . exact ih pool
        . exact fun _ => hR.refl _

theorem members_compare (hR : Compatible R)
    (h : ∀ t ∈ host.types, R _ _ (typeFor catalog package t) (typeFor catalog' package t)) :
    R _ _ (members ⟨catalog, host, package⟩) (members ⟨catalog', host, package⟩) := by
  obtain ⟨-, hconstructors, hgetters, hsetters⟩ := HostClass.forall_mem_types.mp h
  unfold members
  apply hR.bind (constructors_compare hR 0 hconstructors)
  intro constructors
  apply hR.bind (hR.refl _)
  intro _
  apply hR.bind (fieldGetters_compare hR _ _ hgetters)
  rintro ⟨bound, pool⟩
  apply hR.bind
  . apply computedGetters_compare hR
    intro m hm
    exact hgetters m (List.mem_filter.mp hm).1
  . rintro ⟨computed, pool⟩
    apply hR.bind (setters_compare hR _ _ hsetters)
    exact fun _ => hR.refl _

theorem bodyOf_compare (hR : Compatible R)
    (h : ∀ t ∈ host.types, R _ _ (typeFor catalog package t) (typeFor catalog' package t)) :
    R _ _ (bodyOf ⟨catalog, host, package⟩) (bodyOf ⟨catalog', host, package⟩) := by
  unfold bodyOf
  dsimp only
  split
  . exact hR.refl _
  . exact members_compare hR h

/-- The outlines of a class against two catalogs compare as the wrappers it refers to. -/
theorem ofClass_compare (hR : Compatible R)
    (hown : catalog.get? host.name = catalog'.get? host.name)
    (h : ∀ package name, host.references name = true →
      ∀ t, R _ _ (named catalog package name t) (named catalog' package name t)) :
    R _ _ (ofClass catalog host) (ofClass catalog' host) := by
  unfold ofClass
  rw [hown]
  split
  . exact hR.refl _
  . next entry _ =>
    dsimp only
    split
    . exact hR.refl _
    . apply hR.bind
      . apply bodyOf_compare hR
        intro t ht
        apply typeFor_compare hR
        intro name hmentions
        exact h entry.package name (List.any_eq_true.mpr ⟨t, ht, hmentions⟩)
      . exact fun _ => hR.refl _

end Outline

theorem generateFile_compare (hR : Compatible R)
    (hown : catalog.get? host.name = catalog'.get? host.name)
    (h : ∀ package name, host.references name = true →
      ∀ t, R _ _ (named catalog package name t) (named catalog' package name t)) :
    R _ _ (generateFile catalog host) (generateFile catalog' host) := by
  unfold generateFile
  apply hR.bind (Outline.ofClass_compare hR hown h)
  exact fun _ => hR.refl _

/-- Whether two catalogs are the same for a class: they have the same wrapper of the class itself, and
the same wrappers and types for all the names that its members use. -/
structure AgreeFor (host : HostClass) (catalog catalog' : Catalog) : Prop where
  own : catalog.get? host.name = catalog'.get? host.name
  wrappers : ∀ name, host.references name = true → catalog.get? name = catalog'.get? name
  externals : ∀ name, host.references name = true →
    catalog.external? name = catalog'.external? name

/-- Nothing else of a catalog makes a difference to the file of a class, or to why it has none. -/
theorem AgreeFor.generateFile_eq (h : AgreeFor host catalog catalog') :
    generateFile catalog host = generateFile catalog' host := by
  apply generateFile_compare compatible_eq h.own
  intro package name hreferences t
  simp only [named, namedType?, h.wrappers name hreferences, h.externals name hreferences]

theorem generateFile_foldl_erase (catalog : Catalog) {host : HostClass} (names : List String)
    (hown : host.name ∉ names) (hunused : names.any host.references = false) :
    generateFile (names.foldl (fun catalog name => catalog.erase name) catalog) host =
      generateFile catalog host := by
  have hget : ∀ name, name ∉ names →
      (names.foldl (fun catalog name => catalog.erase name) catalog).get? name =
        catalog.get? name := by
    intro name hname
    rw [Catalog.foldl_erase, Catalog.get?_restrict, if_pos (by simpa using hname)]
  apply AgreeFor.generateFile_eq
  constructor
  . exact hget host.name hown
  . intro name hreferences
    apply hget
    intro hname
    exact List.any_eq_false.mp hunused name hname hreferences
  . intro name _
    rw [Catalog.foldl_erase, Catalog.external?_restrict]

/-- A class comes to the same file without the wrapper of another one that its members do not use, or
is refused or breaks the batch for the same reason. -/
theorem generateFile_erase (catalog : Catalog) {host : HostClass} {name : String}
    (hother : name ≠ host.name) (hunused : host.references name = false) :
    generateFile (catalog.erase name) host = generateFile catalog host := by
  apply generateFile_foldl_erase catalog [name]
  . simpa using hother.symm
  . simpa using hunused

def shelfClass : HostClass :=
  let books := HostType.applied "java.util.Map" [.plain .string,
    .applied "java.util.List" [.object "p.Book"]]
  { HostClass.plain "p.Shelf" with
    constructors := [⟨[⟨"books", books⟩]⟩]
    getters := [⟨"getBooks", [], books, [], none⟩] }

def shelfCatalog : Catalog :=
  let names := [("p.Book", "Book"), ("p.Reader", "Reader"), ("p.Shelf", "Shelf")]
  ⟨names.map fun (className, name) => (className, ⟨className, "w.p", name, false⟩), []⟩

set_option maxRecDepth 10000 in
/-- A shelf has a wrapper without that of a reader, and has none without that of a book, whether or not
there is that of a reader. -/
theorem generateFile_erase_shelf :
    shelfCatalog.has "p.Reader" = true ∧
      generateFile (shelfCatalog.erase "p.Reader") shelfClass =
        generateFile shelfCatalog shelfClass ∧
      (generateFile shelfCatalog shelfClass).isOk = true ∧
      generateFile ((shelfCatalog.erase "p.Book").erase "p.Reader") shelfClass =
        generateFile (shelfCatalog.erase "p.Book") shelfClass ∧
      (generateFile (shelfCatalog.erase "p.Book") shelfClass).isOk = false :=
  ⟨by decide, generateFile_erase _ (by decide) (by decide), by decide,
    generateFile_erase _ (by decide) (by decide), by decide⟩

/-- A file that is generated with few wrappers is the same with more of them. -/
theorem generateFile_keeps {catalog : Catalog} {host : HostClass} {keep keep' : String → Bool}
    (hexternal : ∀ name entry, catalog.get? name = some entry → catalog.external? name = none)
    (hkeep : ∀ name, keep name = true → keep' name = true) (hown : keep host.name = true) :
    Keeps (generateFile (catalog.restrict keep) host)
      (generateFile (catalog.restrict keep') host) := by
  apply generateFile_compare compatible_keeps
  . rw [Catalog.get?_restrict, Catalog.get?_restrict, if_pos hown, if_pos (hkeep _ hown)]
  . intro package name _ t type htype
    simp only [named, namedType?, Catalog.get?_restrict, Catalog.external?_restrict] at htype ⊢
    cases hentry : catalog.get? name with
    | none => simpa [hentry] using htype
    | some entry =>
      cases hname : keep name with
      | true => simpa [hentry, hname, hkeep name hname] using htype
      | false =>
        -- a class of the catalog has no other type than its wrapper
        simp [hname, hexternal name entry hentry] at htype

end Facade.Scala
