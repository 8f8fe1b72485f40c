import Facade.Proofs.Conversion.Returned
import Facade.Proofs.Nullability

/-!
This module contains the proofs about which host types something stands for in wrappers: just those
whose nodes all have something that stands for them. The type that stands for such a type has its
structure, and of any other type the first node with nothing that stands for it is reported.
-/

namespace Facade

open Host Outcome

namespace Scala.Collection

def hostNames : Collection → List String
  | list => ["java.util.List", "java.util.Collection", "java.lang.Iterable"]
  | set => ["java.util.Set"]
  | map => ["java.util.Map"]

theorem named?_eq_some_iff {name : String} {collection : Collection} :
    named? name = some collection ↔ name ∈ collection.hostNames := by
  constructor
  . intro h
    unfold named? at h
    split at h <;> cases h <;> decide
  . have hnames : ∀ name ∈ collection.hostNames, named? name = some collection := by
      cases collection <;> decide
    exact hnames name

theorem of?_eq_some_iff {name : String} {arguments : Nat} {collection : Collection} :
    of? name arguments = some collection ↔
      name ∈ collection.hostNames ∧ arguments = collection.arity := by
  rw [of?, Option.filter_eq_some_iff, named?_eq_some_iff, beq_iff_eq, eq_comm (a := arguments)]

end Scala.Collection

namespace Host

namespace Scalar

theorem mem_all (s : Scalar) : s ∈ all := by
  cases s <;> decide

theorem isSome_ofPlain?_iff {name : String} :
    (ofPlain? name).isSome = true ↔ ∃ s : Scalar, s.plainName = name := by
  simp [ofPlain?, mem_all]

theorem isSome_ofBoxed?_iff {name : String} :
    (ofBoxed? name).isSome = true ↔ ∃ s : Scalar, s.boxedName? = some name := by
  simp [ofBoxed?, mem_all]

end Scalar

namespace HostType

mutual

/-- The type, and the arguments in it that count for what stands for it: a node in front of those in its
arguments, and the arguments from left to right. Only generic types have arguments that count. -/
def nodes : HostType → List HostType
  | mk kind name arguments nullable =>
    mk kind name arguments nullable :: if kind = .applied then nodesAmong arguments else []

def nodesAmong : List HostType → List HostType
  | [] => []
  | t :: ts => t.nodes ++ nodesAmong ts

end

section

variable {ts us : List HostType}

theorem length_of_allSameShape (h : allSameShape ts us = true) : ts.length = us.length := by
  induction ts generalizing us with
  | nil =>
    cases us with
    | nil => rfl
    | cons u us => cases h
  | cons t ts ih =>
    cases us with
    | nil => cases h
    | cons u us =>
      rw [allSameShape, Bool.and_eq_true] at h
      rw [List.length_cons, List.length_cons, ih h.2]

end

mutual

theorem render_of_sameShape : ∀ t u : HostType, t.sameShape u = true → t.render = u.render
  | mk _ _ [] _, mk _ _ [] _, h => by
    simp only [sameShape, Bool.and_eq_true, beq_iff_eq] at h
    exact h.1.2
  | mk _ _ [] _, mk _ _ (_ :: _) _, h => by simp [sameShape, allSameShape] at h
  | mk _ _ (_ :: _) _, mk _ _ [] _, h => by simp [sameShape, allSameShape] at h
  | mk _ name (t :: ts) _, mk _ name' (u :: us) _, h => by
    simp only [sameShape, allSameShape, Bool.and_eq_true, beq_iff_eq] at h
    obtain ⟨⟨-, rfl⟩, hfirst, hrest⟩ := h
    rw [render, render, render_of_sameShape t u hfirst, renderMore_of_allSameShape ts us hrest]

theorem renderMore_of_allSameShape : ∀ ts us : List HostType,
    allSameShape ts us = true → renderMore ts = renderMore us
  | [], [], _ => rfl
  | [], _ :: _, h => by cases h
  | _ :: _, [], h => by cases h
  | t :: ts, u :: us, h => by
    rw [allSameShape, Bool.and_eq_true] at h
    rw [renderMore, renderMore, render_of_sameShape t u h.1, renderMore_of_allSameShape ts us h.2]

end

/-- Whether something stands for a type, whatever its arguments are. -/
def IsResolvable (catalog : Catalog) (t : HostType) : Prop :=
  match t.kind with
  | .plain => ∃ s : Scalar, s.plainName = t.name
  | .boxed => ∃ s : Scalar, s.boxedName? = some t.name
  | .applied => ∃ collection : Scala.Collection,
    t.name ∈ collection.hostNames ∧ t.arguments.length = collection.arity
  | .enumeration | .object =>
    (∃ entry, catalog.get? t.name = some entry) ∨
      ∃ expression, catalog.external? t.name = some expression

end HostType

end Host

namespace Scala

open HostType

/-- Whether a type stands for a host type, node by node. -/
inductive Mirrors (catalog : Catalog) (package : String) : HostType → ScalaType → Prop where
  | plain (s : Scalar) {arguments : List HostType} {nullable : Bool} :
      Mirrors catalog package (.mk .plain s.plainName arguments nullable) (.scalar s false)
  | boxed {s : Scalar} {name : String} {arguments : List HostType} {nullable : Bool}
      (hname : s.boxedName? = some name) :
      Mirrors catalog package (.mk .boxed name arguments nullable) (.scalar s true)
  | wrapper {kind : TypeKind} {name : String} {arguments : List HostType} {nullable : Bool}
      {entry : Catalog.Entry} (hkind : kind = .enumeration ∨ kind = .object)
      (hentry : catalog.get? name = some entry) :
      Mirrors catalog package (.mk kind name arguments nullable) (wrapperType entry package)
  | external {kind : TypeKind} {name : String} {arguments : List HostType} {nullable : Bool}
      {expression : String} (hkind : kind = .enumeration ∨ kind = .object)
      (hentry : catalog.get? name = none) (hexternal : catalog.external? name = some expression) :
      Mirrors catalog package (.mk kind name arguments nullable) (.external expression)
  | list {name : String} {t : HostType} {nullable : Bool} {element : ScalaType}
      (hname : name ∈ Collection.list.hostNames) (h : Mirrors catalog package t element) :
      Mirrors catalog package (.mk .applied name [t] nullable) (.list element)
  | set {name : String} {t : HostType} {nullable : Bool} {element : ScalaType}
      (hname : name ∈ Collection.set.hostNames) (h : Mirrors catalog package t element) :
      Mirrors catalog package (.mk .applied name [t] nullable) (.set element)
  | map {name : String} {t u : HostType} {nullable : Bool} {key value : ScalaType}
      (hname : name ∈ Collection.map.hostNames) (hkey : Mirrors catalog package t key)
      (hvalue : Mirrors catalog package u value) :
      Mirrors catalog package (.mk .applied name [t, u] nullable) (.map key value)

/-- Whether a host type is the first one among some that nothing stands for. -/
def IsFirstUnresolvable (catalog : Catalog) (nodes : List HostType) (t : HostType) : Prop :=
  ∃ before after, nodes = before ++ t :: after ∧ (∀ n ∈ before, n.IsResolvable catalog) ∧
    ¬ t.IsResolvable catalog

/-- Whether an outcome is right for host types with some nodes: something that stands for them if
something stands for all of these, and otherwise the first one that nothing stands for. -/
def Settles {α : Type} (catalog : Catalog) (nodes : List HostType) (Stands : α → Prop) :
    Except HostType α → Prop
  | .ok a => (∀ n ∈ nodes, n.IsResolvable catalog) ∧ Stands a
  | .error t => IsFirstUnresolvable catalog nodes t

section

variable {catalog : Catalog} {package : String}

theorem IsFirstUnresolvable.append_right {nodes : List HostType} {t : HostType}
    (h : IsFirstUnresolvable catalog nodes t) (rest : List HostType) :
    IsFirstUnresolvable catalog (nodes ++ rest) t := by
  obtain ⟨before, after, rfl, hbefore, ht⟩ := h
  exact ⟨before, after ++ rest, by simp, hbefore, ht⟩

theorem IsFirstUnresolvable.append_left {nodes first : List HostType} {t : HostType}
    (h : IsFirstUnresolvable catalog nodes t) (hfirst : ∀ n ∈ first, n.IsResolvable catalog) :
    IsFirstUnresolvable catalog (first ++ nodes) t := by
  obtain ⟨before, after, rfl, hbefore, ht⟩ := h
  refine ⟨first ++ before, after, by simp, ?_, ht⟩
  rw [List.forall_mem_append]
  exact ⟨hfirst, hbefore⟩

theorem isFirstUnresolvable_nodes {t : HostType} (h : ¬ t.IsResolvable catalog) :
    IsFirstUnresolvable catalog t.nodes t := by
  obtain ⟨kind, name, arguments, nullable⟩ := t
  rw [nodes]
  exact ⟨[], _, rfl, nofun, h⟩

theorem settles_of_simple {kind : TypeKind} {name : String} {arguments : List HostType}
    {nullable : Bool} {type? : Option ScalaType} (hkind : kind ≠ .applied)
    (hresolvable : (HostType.mk kind name arguments nullable).IsResolvable catalog ↔
      type?.isSome = true)
    (hmirrors : ∀ type, type? = some type →
      Mirrors catalog package (.mk kind name arguments nullable) type) :
    Settles catalog (HostType.mk kind name arguments nullable).nodes
      (Mirrors catalog package (.mk kind name arguments nullable))
      (type?.elim (.error (.mk kind name arguments nullable)) .ok) := by
  cases type? with
  | none =>
    apply isFirstUnresolvable_nodes
    simp [hresolvable]
  | some type =>
    rw [nodes, if_neg hkind]
    exact ⟨List.forall_mem_singleton.mpr (hresolvable.mpr rfl), hmirrors type rfl⟩

theorem isSome_namedType?_iff {name : String} :
    (namedType? catalog package name).isSome = true ↔
      (∃ entry, catalog.get? name = some entry) ∨
        ∃ expression, catalog.external? name = some expression := by
  unfold namedType?
  cases catalog.get? name with
  | some entry => simp
  | none => simp [Option.isSome_iff_exists]

theorem mirrors_of_namedType? {kind : TypeKind} {name : String} {arguments : List HostType}
    {nullable : Bool} {type : ScalaType} (hkind : kind = .enumeration ∨ kind = .object)
    (h : namedType? catalog package name = some type) :
    Mirrors catalog package (.mk kind name arguments nullable) type := by
  unfold namedType? at h
  split at h
  . next entry hentry =>
    cases h
    exact .wrapper hkind hentry
  . next hnone =>
    obtain ⟨expression, hexpression, rfl⟩ := Option.map_eq_some_iff.mp h
    exact .external hkind hnone hexpression

theorem mirrors_apply {name : String} {arguments : List HostType} {nullable : Bool}
    {types : List ScalaType} {collection : Collection} (hname : name ∈ collection.hostNames)
    (harity : arguments.length = collection.arity)
    (h : List.Forall₂ (Mirrors catalog package) arguments types) :
    Mirrors catalog package (.mk .applied name arguments nullable) (collection.apply types) := by
  cases collection with
  | list =>
    obtain ⟨t, rfl⟩ := List.length_eq_one_iff.mp harity
    obtain ⟨element, _, helement, hnil, rfl⟩ := List.forall₂_cons_left_iff.mp h
    exact .list hname helement
  | set =>
    obtain ⟨t, rfl⟩ := List.length_eq_one_iff.mp harity
    obtain ⟨element, _, helement, hnil, rfl⟩ := List.forall₂_cons_left_iff.mp h
    exact .set hname helement
  | map =>
    obtain ⟨t, u, rfl⟩ := List.length_eq_two.mp harity
    obtain ⟨key, _, hkey, hrest, rfl⟩ := List.forall₂_cons_left_iff.mp h
    obtain ⟨value, _, hvalue, hnil, rfl⟩ := List.forall₂_cons_left_iff.mp hrest
    exact .map hname hkey hvalue

mutual

theorem settles_typeFor (catalog : Catalog) (package : String) : ∀ t : HostType,
    Settles catalog t.nodes (Mirrors catalog package t) (typeFor catalog package t)
  | .mk kind name arguments nullable => by
    unfold typeFor
    cases kind with
    | plain =>
      apply settles_of_simple (by decide)
      . rw [Option.isSome_map]
        exact Scalar.isSome_ofPlain?_iff.symm
      . intro type htype
        obtain ⟨s, hs, rfl⟩ := Option.map_eq_some_iff.mp htype
        obtain rfl := Scalar.ofPlain?_eq_some_iff.mp hs
        exact .plain s
    | boxed =>
      apply settles_of_simple (by decide)
      . rw [Option.isSome_map]
        exact Scalar.isSome_ofBoxed?_iff.symm
      . intro type htype
        obtain ⟨s, hs, rfl⟩ := Option.map_eq_some_iff.mp htype
        exact .boxed (Scalar.ofBoxed?_eq_some_iff.mp hs)
    | enumeration =>
      exact settles_of_simple (by decide) isSome_namedType?_iff.symm
        fun type => mirrors_of_namedType? (.inl rfl)
    | object =>
      exact settles_of_simple (by decide) isSome_namedType?_iff.symm
        fun type => mirrors_of_namedType? (.inr rfl)
    | applied =>
      dsimp only
      split
      -- the node itself is the first one that cannot be resolved: it stands before its arguments
      . next hnone =>
        apply isFirstUnresolvable_nodes
        rintro ⟨collection, hname, harity⟩
        have hsome : Collection.of? name arguments.length = some collection :=
          Collection.of?_eq_some_iff.mpr ⟨hname, harity⟩
        rw [hnone] at hsome
        cases hsome
      . next collection hcollection =>
        obtain ⟨hname, harity⟩ := Collection.of?_eq_some_iff.mp hcollection
        have hself : (HostType.mk .applied name arguments nullable).IsResolvable catalog :=
          ⟨collection, hname, harity⟩
        have harguments := settles_typesFor catalog package arguments
        rw [nodes, if_pos rfl]
        cases htypes : typesFor catalog package arguments with
        | error unresolved =>
          rw [htypes] at harguments
          exact harguments.append_left (List.forall_mem_singleton.mpr hself)
        | ok types =>
          rw [htypes] at harguments
          exact ⟨List.forall_mem_cons.mpr ⟨hself, harguments.1⟩,
            mirrors_apply hname harity harguments.2⟩

theorem settles_typesFor (catalog : Catalog) (package : String) : ∀ ts : List HostType,
    Settles catalog (nodesAmong ts) (List.Forall₂ (Mirrors catalog package) ts)
      (typesFor catalog package ts)
  | [] => ⟨nofun, .nil⟩
  | t :: ts => by
    have hfirst := settles_typeFor catalog package t
    have hrest := settles_typesFor catalog package ts
    rw [nodesAmong, typesFor]
    cases htype : typeFor catalog package t with
    | error unresolved =>
      rw [htype] at hfirst
      exact hfirst.append_right _
    | ok type =>
      rw [htype] at hfirst
      cases htypes : typesFor catalog package ts with
      | error unresolved =>
        rw [htypes] at hrest
        exact hrest.append_left hfirst.1
      | ok types =>
        rw [htypes] at hrest
        exact ⟨List.forall_mem_append.mpr ⟨hfirst.1, hrest.1⟩, .cons hfirst.2 hrest.2⟩

end

theorem typeForMember_eq (catalog : Catalog) (package member : String) (t : HostType) :
    typeForMember catalog package member t =
      ((typeFor catalog package t).mapError render).mapError (.unresolved member) := by
  unfold typeForMember
  cases typeFor catalog package t <;> rfl

theorem mapError_bind {ε ε' α β : Type} (x : Except ε α) (f : α → Except ε β) (g : ε → ε') :
    (x >>= f).mapError g = (x.mapError g >>= fun a => (f a).mapError g) := by
  cases x <;> rfl

theorem mapError_elim_of_render {t u : HostType} (h : t.render = u.render)
    (type? : Option ScalaType) :
    (type?.elim (Except.error t) Except.ok).mapError render =
      (type?.elim (Except.error u) Except.ok).mapError render := by
  cases type? with
  | none => exact congrArg Except.error h
  | some type => rfl

mutual

theorem mapError_typeFor_of_sameShape (catalog : Catalog) (package : String) : ∀ t u : HostType,
    t.sameShape u = true → (typeFor catalog package t).mapError render =
      (typeFor catalog package u).mapError render
  | .mk kind name arguments nullable, .mk kind' name' arguments' nullable', h => by
    have hrender := render_of_sameShape _ _ h
    simp only [sameShape, Bool.and_eq_true, beq_iff_eq] at h
    obtain ⟨⟨rfl, rfl⟩, harguments⟩ := h
    unfold typeFor
    cases kind with
    | plain | boxed | enumeration | object => exact mapError_elim_of_render hrender _
    | applied =>
      dsimp only
      rw [← length_of_allSameShape harguments]
      cases Collection.of? name arguments.length with
      | none => exact congrArg Except.error hrender
      | some collection =>
        dsimp only
        rw [mapError_bind, mapError_bind,
          mapError_typesFor_of_allSameShape catalog package arguments arguments' harguments]

theorem mapError_typesFor_of_allSameShape (catalog : Catalog) (package : String) :
    ∀ ts us : List HostType, allSameShape ts us = true →
      (typesFor catalog package ts).mapError render = (typesFor catalog package us).mapError render
  | [], [], _ => rfl
  | [], _ :: _, h => by cases h
  | _ :: _, [], h => by cases h
  | t :: ts, u :: us, h => by
    rw [allSameShape, Bool.and_eq_true] at h
    simp only [typesFor, mapError_bind, mapError_typeFor_of_sameShape catalog package t u h.1,
      mapError_typesFor_of_allSameShape catalog package ts us h.2]

end

/-- Whether a member gets a type depends on the nodes of its host type: something has to stand for all of
them, and then its type is made of what does, and is not optional anywhere. Otherwise the first node that
nothing stands for is reported, as it is written. What may be absent in the host type makes no
difference. -/
theorem type_resolution (catalog : Catalog) (package member : String) (t : HostType) :
    ((∃ type, typeForMember catalog package member t = .ok type) ↔
        ∀ n ∈ t.nodes, n.IsResolvable catalog) ∧
      (∀ type, typeForMember catalog package member t = .ok type →
        Mirrors catalog package t type ∧ type.holdsOption = false) ∧
      (∀ refusal, typeForMember catalog package member t = .error refusal →
        ∃ n, IsFirstUnresolvable catalog t.nodes n ∧ refusal = .unresolved member n.render) ∧
      ∀ u, t.sameShape u = true →
        typeForMember catalog package member t = typeForMember catalog package member u := by
  have hsettles := settles_typeFor catalog package t
  have hshape : ∀ u, t.sameShape u = true →
      typeForMember catalog package member t = typeForMember catalog package member u := by
    intro u hu
    rw [typeForMember_eq, typeForMember_eq, mapError_typeFor_of_sameShape catalog package t u hu]
  cases htype : typeFor catalog package t with
  | ok type =>
    have hmember : typeForMember catalog package member t = .ok type := by
      rw [typeForMember, htype]
    rw [htype] at hsettles
    rw [hmember] at hshape ⊢
    refine ⟨iff_of_true ⟨type, rfl⟩ hsettles.1, ?_, ?_, hshape⟩
    . rintro _ ⟨⟩
      exact ⟨hsettles.2, ScalaType.holdsOption_of_typeFor htype⟩
    . rintro refusal ⟨⟩
  | error n =>
    have hmember : typeForMember catalog package member t =
        .error (.unresolved member n.render) := by
      rw [typeForMember, htype]
    rw [htype] at hsettles
    rw [hmember] at hshape ⊢
    obtain ⟨before, after, hnodes, -, hn⟩ := id hsettles
    have hnone : ¬ ∃ type, (Except.error (.unresolved member n.render) : Except Refusal ScalaType) =
        .ok type := by
      rintro ⟨type, ⟨⟩⟩
    refine ⟨iff_of_false hnone fun hall => hn (hall n (by simp [hnodes])), ?_, ?_, hshape⟩
    . rintro type ⟨⟩
    . rintro _ ⟨⟩
      exact ⟨n, hsettles, rfl⟩

def momentsType : HostType :=
  .applied "java.util.Map"
    [.plain .string, .applied "java.lang.Iterable" [.object "java.time.Instant"]]

theorem type_resolution_moments :
    (∃ type, typeForMember ⟨[], [("java.time.Instant", "Moment")]⟩ "p.wrappers" "p.Log.getTimes()"
        momentsType = .ok type ∧ type.render = "Map[String, List[Moment]]" ∧
        Mirrors ⟨[], [("java.time.Instant", "Moment")]⟩ "p.wrappers" momentsType type) ∧
      ∃ n, IsFirstUnresolvable ⟨[], []⟩ momentsType.nodes n ∧ n.render = "java.time.Instant" := by
  have hmoment : (typeForMember ⟨[], [("java.time.Instant", "Moment")]⟩ "p.wrappers"
      "p.Log.getTimes()" momentsType).toOption =
        some (.map (.scalar .string false) (.list (.external "Moment"))) := by
    decide
  rw [toOption_eq_some_iff] at hmoment
  have hnone : typeForMember ⟨[], []⟩ "p.wrappers" "p.Log.getTimes()" momentsType =
      .error (.unresolved "p.Log.getTimes()" "java.time.Instant") := by
    decide
  obtain ⟨-, hmirrors, -, -⟩ := type_resolution ⟨[], [("java.time.Instant", "Moment")]⟩ "p.wrappers"
    "p.Log.getTimes()" momentsType
  obtain ⟨-, -, hfirst, -⟩ := type_resolution ⟨[], []⟩ "p.wrappers" "p.Log.getTimes()" momentsType
  obtain ⟨n, hn, hreported⟩ := hfirst _ hnone
  exact ⟨⟨_, hmoment, rfl, (hmirrors _ hmoment).1⟩, n, hn, (Refusal.unresolved.inj hreported).2.symm⟩

end

end Scala

end Facade
