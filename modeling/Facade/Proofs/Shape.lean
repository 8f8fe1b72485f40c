import Facade.Proofs.Binding.Outlined
import Mathlib.Data.List.Perm.Subperm

/-!
This module contains the proof that a wrapper has the shape of its class: what can be called on the
class can be called on the wrapper, once, and nothing else can.
-/

namespace Facade.Record

open Host Matching Outcome Scala Settings

structure Place.Passes (place : Place) (p : Parameter) (q : Outline.Parameter) : Prop where
  name : q.hostName = p.name
  type : place.Types p.type q.type

/-- Whether a member of the wrapper of a class calls a method to read a value. -/
structure Place.Reads (place : Place) (className : String) (m : Method) (g : Outline.Getter) :
    Prop where
  name : g.hostMethod = m.name
  type : place.Types m.returns g.type
  throws : m.throws.mapM (readException (methodName className m.name)) = .ok g.throws

/-- Whether a member of the wrapper of a class calls a method to assign a value. -/
structure Place.Assigns (place : Place) (className : String) (m : Method) (s : Outline.Setter) :
    Prop where
  name : s.hostMethod = m.name
  type : ∃ p, m.parameters = [p] ∧ place.Types p.type s.type
  throws : m.throws.mapM (readException (methodName className m.name)) = .ok s.throws

variable {markers : Markers} {r : Record} {c : HostClass}

theorem reads_of_outlines {context : Outline.Context} {enums : List String} {m : Method}
    {d : HostClass.Method} {g : Outline.Getter}
    (hdescribed : m.GetterDescribedBy markers enums r.name d) (houtlines : g.Outlines context d) :
    Place.Reads ⟨enums, context.catalog, context.package⟩ r.name m g where
  name := houtlines.name.trans hdescribed.name
  type := by
    obtain ⟨plain, hplain, hreturns⟩ := hdescribed.returns
    exact types_of_stands hplain hreturns houtlines.type
  throws := by
    rw [houtlines.throws]
    exact hdescribed.throws

theorem assigns_of_outlines {context : Outline.Context} {enums : List String} {m : Method}
    {d : HostClass.Method} {field : String} {s : Outline.Setter}
    (hdescribed : m.SetterDescribedBy markers enums r.name d)
    (houtlines : s.Outlines context field d) :
    Place.Assigns ⟨enums, context.catalog, context.package⟩ r.name m s where
  name := houtlines.name.trans hdescribed.name
  type := by
    obtain ⟨p, plain, hparameters, hplain, hparameter⟩ := hdescribed.parameter
    obtain ⟨t, ht, htype⟩ := houtlines.type
    rw [hparameter, List.cons.injEq] at ht
    exact ⟨p, hparameters, types_of_stands hplain ht.1.symm htype⟩
  throws := by
    rw [houtlines.throws]
    exact hdescribed.throws

/-- A wrapper has the constructors of its class in their order, a member for every method that reads
a property, and one for every field that a method assigns. Fields are read first, in their order, each
by the first method that does so, and then the methods that are left in theirs. -/
theorem shape_preserved (markers : Markers) (enums : List String) (r : Record) (c : HostClass)
    (catalog : Catalog) (o : Outline) (hclass : r.isEnum = false)
    (hdescribe : describe markers enums r = .ok c)
    (houtline : Outline.ofClass catalog c = .ok o) :
    let place : Place := ⟨enums, catalog, o.package⟩
    ∃ constructors bound computed setters,
      o.body = .members constructors (bound ++ computed) setters ∧
      List.Forall₂ (fun k l => List.Forall₂ place.Passes k.parameters l.parameters)
        r.publicConstructors constructors ∧
      List.Forall₂ (fun (f, m) g => place.Reads r.name m g ∧ g.field = some f.name)
        (r.fieldReaders enums) bound ∧
      List.Forall₂ (fun m g => place.Reads r.name m g ∧ g.field = none)
        (r.computedReaders enums) computed ∧
      List.Forall₂ (fun (f, m) s => place.Assigns r.name m s ∧ s.field = f.name)
        (r.fieldAssigners enums) setters ∧
      ((r.fieldReaders enums).map Prod.snd ++ r.computedReaders enums).Perm
        (r.readers enums) ∧
      (r.computedReaders enums).Sublist (r.readers enums) ∧
      ((r.fieldAssigners enums).map Prod.snd).Subperm r.publicMethods := by
  intro place
  obtain ⟨hnames, -, -⟩ := bound_of_describe hclass hdescribe
  obtain ⟨constructors, bound, computed, setters, hbody, hmembers⟩ :=
    outlined_of_ofClass hclass hdescribe houtline
  refine ⟨constructors, bound, computed, setters, hbody, ?_, ?_, ?_, ?_, ?_, ?_, ?_⟩
  . apply hmembers.constructors.imp
    intro k l hparameters
    apply hparameters.imp
    rintro p q ⟨d, hdescribed, houtlines⟩
    obtain ⟨plain, hplain, htype⟩ := hdescribed.type
    exact ⟨houtlines.name.trans hdescribed.name, types_of_stands hplain htype houtlines.type⟩
  . apply hmembers.bound.imp
    rintro ⟨f, m⟩ g ⟨-, d, hdescribed, hgetter, houtlines⟩
    refine ⟨reads_of_outlines hdescribed houtlines, ?_⟩
    rw [houtlines.field]
    simpa using List.find?_some hgetter
  . apply hmembers.computed.imp
    rintro m g ⟨d, hdescribed, hfield, houtlines⟩
    exact ⟨reads_of_outlines hdescribed houtlines, houtlines.field.trans hfield⟩
  . apply hmembers.setters.imp
    rintro ⟨f, m⟩ s ⟨-, d, hdescribed, -, houtlines⟩
    exact ⟨assigns_of_outlines hdescribed houtlines, houtlines.field⟩
  . exact firsts_append_leftover_perm (exclusive_hasProperty hnames _) _
  . exact leftover_sublist
  . have hexclusive : Exclusive (Field.isAssignedBy enums) r.instanceFields :=
      exclusive_hasProperty hnames _
    have hperm := firsts_append_leftover_perm hexclusive r.publicMethods
    exact (List.sublist_append_left _ _).subperm.trans hperm.subperm

def publicMethod (name returns : String) (parameters : List Parameter) : Method where
  name
  returns
  parameters
  throws := []
  annotations := []
  modifiers := [.public]

/-- A class with two methods that read one field and two that assign one, a method that reads no field
for its type, and methods that are no members of a wrapper. -/
def accountRecord : Record where
  name := "p.Account"
  kind := .class
  constants := []
  modifiers := [.public]
  fields := [⟨"active", "boolean", [.private], []⟩, ⟨"tags", "java.util.List<String>", [], []⟩,
    ⟨"count", "int", [.static], []⟩]
  constructors := [⟨[⟨"active", "boolean", []⟩, ⟨"tags", "java.util.List<String>", []⟩], [.public]⟩,
    ⟨[], [.private]⟩]
  methods := [
    publicMethod "getTags" "java.util.Set<String>" [],
    publicMethod "isActive" "boolean" [],
    publicMethod "getActive" "boolean" [],
    publicMethod "setActive" "void" [⟨"active", "int", []⟩],
    publicMethod "setActive" "Account" [⟨"active", "boolean", []⟩],
    publicMethod "setActive" "void" [⟨"active", "boolean", []⟩],
    publicMethod "getClass" "Class" [],
    publicMethod "clear" "void" [],
    { publicMethod "getCount" "int" [] with modifiers := [.public, .static] }
  ]

def accountCatalog : Catalog :=
  ⟨[("p.Account", ⟨"p.Account", "p.wrappers", "Account", false⟩)], []⟩

theorem accountRecord_shape :
    accountRecord.isEnum = false ∧ ∃ c o constructors getters setters,
      describe .standard [] accountRecord = .ok c ∧ Outline.ofClass accountCatalog c = .ok o ∧
      o.body = .members constructors getters setters ∧
      constructors.length = 1 ∧
      getters.map Outline.Getter.hostMethod = ["isActive", "getTags", "getActive"] ∧
      setters.map Outline.Setter.hostMethod = ["setActive"] := by
  refine ⟨rfl, ?_⟩
  have hrun : (outlineOf .standard [] accountCatalog accountRecord).map Outline.name =
      .ok "Account" := by decide +kernel
  obtain ⟨c, o, hdescribe, houtline, -⟩ := exists_outline_of_map hrun
  obtain ⟨ks, bound, computed, ss, hbody, hks, hbound, hcomputed, hsetters, -⟩ :=
    shape_preserved .standard [] accountRecord c accountCatalog o rfl hdescribe houtline
  refine ⟨c, o, ks, _, ss, hdescribe, houtline, hbody, ?_, ?_, ?_⟩
  . rw [← hks.length_eq]
    decide
  . rw [List.map_append, map_eq_of_forall₂ hbound fun read g hread => hread.1.name,
      map_eq_of_forall₂ hcomputed fun m g hread => hread.1.name]
    decide +kernel
  . rw [map_eq_of_forall₂ hsetters fun assigned s hassigned => hassigned.1.name]
    decide +kernel

end Facade.Record
