import Facade.Proofs.Extraction
import Facade.Proofs.Shape
import Mathlib.Tactic.Tauto

/-!
This module contains the proofs about the links between the fields and the methods of a class. A field
tells whether it is read and assigned, and a method tells which field it is for. Both are kept apart, and
tell the same after every method that a class takes in.
-/

namespace Facade.Record

open Host

variable {fields : List HostClass.Field} {test : HostClass.Field → Bool} {name : String}

theorem changeFirst_eq_map (h : fields.Pairwise fun f f' => test f = true → test f' = false)
    (change : HostClass.Field → HostClass.Field) :
    changeFirst test change fields = fields.map fun f => if test f then change f else f := by
  induction fields with
  | nil => rfl
  | cons f fields ih =>
    obtain ⟨hothers, hpairwise⟩ := List.pairwise_cons.mp h
    rw [changeFirst, List.map_cons, ih hpairwise]
    split
    . next hf =>
      -- the test holds for no field behind this one
      have hrest : fields.map (fun f' => if test f' then change f' else f') = fields.map id := by
        apply List.map_congr_left
        intro f' hf'
        rw [hothers f' hf' hf, if_neg Bool.false_ne_true, id_eq]
      rw [hrest, List.map_id]
    . rfl

theorem pairwise_of_name (hnames : (fields.map HostClass.Field.name).Nodup)
    (htest : ∀ f, test f = true → f.name = name) :
    fields.Pairwise fun f f' => test f = true → test f' = false := by
  apply (List.pairwise_map.mp hnames).imp
  intro f f' hne hf
  rw [Bool.eq_false_iff]
  intro hf'
  exact hne ((htest f hf).trans (htest f' hf').symm)

theorem name_find?_eq_some_iff (hnames : (fields.map HostClass.Field.name).Nodup)
    (htest : ∀ f, test f = true → f.name = name) {f : HostClass.Field} (hf : f ∈ fields) :
    (fields.find? test).map HostClass.Field.name = some f.name ↔ test f = true := by
  rw [Option.map_eq_some_iff]
  constructor
  . rintro ⟨f', hfound, hname⟩
    have heq := List.inj_on_of_nodup_map hnames (List.mem_of_find?_eq_some hfound) hf hname
    rw [← heq]
    exact List.find?_some hfound
  . intro hholds
    obtain ⟨f', hfound⟩ := Option.isSome_iff_exists.mp (List.find?_isSome.mpr ⟨f, hf, hholds⟩)
    exact ⟨f', hfound, (htest f' (List.find?_some hfound)).trans (htest f hholds).symm⟩

end Facade.Record

namespace Facade.Host.HostClass

open Record

/-- Whether a getter reads the property of a field and returns values of its shape. -/
def Method.Reads (m : Method) (f : Field) : Prop :=
  getterProperty? m.name m.returns.isBoolean = some f.name ∧ f.type.sameShape m.returns = true

def Method.Assigns (m : Method) (f : Field) : Prop :=
  setterProperty? m.name = some f.name ∧ ∃ t, m.parameters = [t] ∧ f.type.sameShape t = true

/-- Whether the flags of fields and the links of methods tell the same, where `flag` tells whether there
is a method for a field, and `serves` which fields a method could be for. -/
structure Binds (flag : Field → Bool) (serves : Method → Field → Prop) (fields : List Field)
    (methods : List Method) : Prop where
  /-- No two methods are for one field. -/
  distinct : (methods.filterMap Method.field).Nodup
  /-- A field is flagged if and only if a method is for it. -/
  flagged : ∀ f ∈ fields, flag f = true ↔ ∃ m ∈ methods, m.field = some f.name
  /-- A method is for a field that it serves. -/
  served : ∀ m ∈ methods, ∀ name, m.field = some name → ∃ f ∈ fields, f.name = name ∧ serves m f
  /-- A method is for no field only if earlier ones are for all the fields that it serves. -/
  taken : ∀ before m after, methods = before ++ m :: after → m.field = none →
    ∀ f ∈ fields, serves m f → ∃ m' ∈ before, m'.field = some f.name

/-- Whether the fields and the methods of a class tell the same about which method is for which field. -/
structure Linked (c : HostClass) : Prop where
  names : (c.fields.map Field.name).Nodup
  getters : Binds Field.hasGetter Method.Reads c.fields c.getters
  setters : Binds Field.hasSetter Method.Assigns c.fields c.setters
  /-- Setters that are for no field are dropped. -/
  bound : ∀ s ∈ c.setters, s.field.isSome = true ∧ s.parameters.length = 1

/-- Whether a change to fields makes no difference to the methods that could be for them. -/
structure Neutral (serves : Method → Field → Prop) (change : Field → Field) : Prop where
  name : ∀ f, (change f).name = f.name
  serves : ∀ m f, serves m (change f) ↔ serves m f

section

variable {flag : Field → Bool} {serves : Method → Field → Prop} {change : Field → Field}
variable {fields : List Field} {methods : List Method}

theorem Neutral.ite (h : Neutral serves change) (test : Field → Bool) :
    Neutral serves fun f => if test f then change f else f where
  name f := by
    split
    . exact h.name f
    . rfl
  serves m f := by
    split
    . exact h.serves m f
    . rfl

theorem Binds.map (h : Binds flag serves fields methods) (hchange : Neutral serves change)
    (hflag : ∀ f, flag (change f) = flag f) : Binds flag serves (fields.map change) methods := by
  constructor
  . exact h.distinct
  . rw [List.forall_mem_map]
    intro f hf
    rw [hflag, hchange.name]
    exact h.flagged f hf
  . intro m hm name hname
    obtain ⟨f, hf, rfl, hserves⟩ := h.served m hm name hname
    exact ⟨change f, List.mem_map_of_mem hf, hchange.name f, (hchange.serves m f).mpr hserves⟩
  . intro before m after heq hnone
    rw [List.forall_mem_map]
    intro f hf hserves
    rw [hchange.name]
    exact h.taken before m after heq hnone f hf ((hchange.serves m f).mp hserves)

theorem Binds.mapFirst (h : Binds flag serves fields methods) {test : Field → Bool}
    (hone : fields.Pairwise fun f f' => test f = true → test f' = false)
    (hchange : Neutral serves change) (hflag : ∀ f, flag (change f) = flag f) :
    Binds flag serves (changeFirst test change fields) methods := by
  rw [changeFirst_eq_map hone]
  apply h.map (hchange.ite test)
  intro f
  split
  . exact hflag f
  . rfl

/-- One more method is for a field that it serves and that no other is for, if there is one. -/
theorem Binds.concat (h : Binds flag serves fields methods) (hchange : Neutral serves change)
    {m : Method} (hflag : ∀ f ∈ fields, flag (change f) = true ↔ flag f = true ∨ m.field = some f.name)
    (hlink : ∀ name, m.field = some name → ∃ f ∈ fields, f.name = name ∧ serves m f ∧ flag f = false)
    (hnone : m.field = none → ∀ f ∈ fields, serves m f → flag f = true) :
    Binds flag serves (fields.map change) (methods ++ [m]) := by
  constructor
  . rw [List.filterMap_append]
    cases hfield : m.field with
    | none =>
      rw [List.filterMap_cons_none hfield, List.filterMap_nil, List.append_nil]
      exact h.distinct
    | some name =>
      rw [List.filterMap_cons_some hfield, List.filterMap_nil, ← List.concat_eq_append]
      apply h.distinct.concat
      -- a method that is for the field already would have flagged it
      intro hmem
      obtain ⟨f, hf, rfl, -, hfree⟩ := hlink name hfield
      rw [(h.flagged f hf).mpr (List.mem_filterMap.mp hmem)] at hfree
      cases hfree
  . rw [List.forall_mem_map]
    intro f hf
    rw [hflag f hf, h.flagged f hf, hchange.name]
    simp only [List.mem_append, List.mem_singleton, or_and_right, exists_or, exists_eq_left]
  . intro m' hm' name hname
    obtain ⟨f, hf, hfname, hserves⟩ : ∃ f ∈ fields, f.name = name ∧ serves m' f := by
      obtain hm' | hm' := List.mem_append.mp hm'
      . exact h.served m' hm' name hname
      . rw [List.mem_singleton.mp hm'] at hname ⊢
        obtain ⟨f, hf, hfname, hserves, -⟩ := hlink name hname
        exact ⟨f, hf, hfname, hserves⟩
    exact ⟨change f, List.mem_map_of_mem hf, (hchange.name f).trans hfname,
      (hchange.serves m' f).mpr hserves⟩
  . intro before m' after heq hnone'
    rw [List.forall_mem_map]
    intro f hf hserves
    rw [hchange.name]
    rw [hchange.serves] at hserves
    obtain rfl | ⟨after, last, rfl⟩ := List.eq_nil_or_concat after
    . obtain ⟨rfl, hlast⟩ := List.append_inj' heq rfl
      cases hlast
      exact (h.flagged f hf).mp (hnone hnone' f hf hserves)
    . rw [List.concat_eq_append, ← List.cons_append, ← List.append_assoc] at heq
      obtain ⟨heq, -⟩ := List.append_inj' heq rfl
      exact h.taken before m' after heq hnone' f hf hserves

theorem Binds.add (h : Binds flag serves fields methods) (hnames : (fields.map Field.name).Nodup)
    {mark : Field → Field} (hmark : Neutral serves mark) (hflag : ∀ f, flag (mark f) = true)
    {m : Method} {test : Field → Bool} {property : String}
    (htest : ∀ f, test f = true ↔ serves m f ∧ flag f = false)
    (hproperty : ∀ f, serves m f → f.name = property)
    (hfield : m.field = (fields.find? test).map Field.name) :
    Binds flag serves (changeFirst test mark fields) (methods ++ [m]) := by
  have hname : ∀ f, test f = true → f.name = property :=
    fun f hf => hproperty f ((htest f).mp hf).1
  have hlink : ∀ f ∈ fields, m.field = some f.name ↔ test f = true := by
    intro f hf
    rw [hfield]
    exact name_find?_eq_some_iff hnames hname hf
  rw [changeFirst_eq_map (pairwise_of_name hnames hname)]
  apply h.concat (hmark.ite test)
  . intro f hf
    rw [hlink f hf]
    split
    . next hholds => simp [hflag f, hholds]
    . next hfails => simp [hfails]
  . intro name hm
    rw [hfield] at hm
    obtain ⟨f, hfound, rfl⟩ := Option.map_eq_some_iff.mp hm
    obtain ⟨hserves, hfree⟩ := (htest f).mp (List.find?_some hfound)
    exact ⟨f, List.mem_of_find?_eq_some hfound, rfl, hserves, hfree⟩
  . intro hm f hf hserves
    rw [hfield, Option.map_eq_none_iff, List.find?_eq_none] at hm
    have hfails := hm f hf
    rw [htest, not_and, Bool.not_eq_false] at hfails
    exact hfails hserves

end

theorem linked_of_unbound {c : HostClass} (hnames : (c.fields.map Field.name).Nodup)
    (hfree : ∀ f ∈ c.fields, f.hasGetter = false ∧ f.hasSetter = false) (hgetters : c.getters = [])
    (hsetters : c.setters = []) : c.Linked where
  names := hnames
  getters := by
    rw [hgetters]
    exact
      { distinct := List.nodup_nil
        flagged := fun f hf => by simp [(hfree f hf).1]
        served := nofun
        taken := by simp }
  setters := by
    rw [hsetters]
    exact
      { distinct := List.nodup_nil
        flagged := fun f hf => by simp [(hfree f hf).2]
        served := nofun
        taken := by simp }
  bound := by simp [hsetters]

section

variable {change : Field → Field}

theorem neutral_reads (hname : ∀ f, (change f).name = f.name) (htype : ∀ f, (change f).type = f.type) :
    Neutral Method.Reads change :=
  ⟨hname, fun m f => by rw [Method.Reads, Method.Reads, hname, htype]⟩

theorem neutral_assigns (hname : ∀ f, (change f).name = f.name)
    (htype : ∀ f, (change f).type = f.type) : Neutral Method.Assigns change :=
  ⟨hname, fun m f => by rw [Method.Assigns, Method.Assigns, hname, htype]⟩

end

theorem acceptsGetter_iff {g : Method} {property : String}
    (h : getterProperty? g.name g.returns.isBoolean = some property) (f : Field) :
    acceptsGetter property g.returns f = true ↔ g.Reads f ∧ f.hasGetter = false := by
  simp only [acceptsGetter, Method.Reads, h, Bool.and_eq_true, beq_iff_eq, Bool.not_eq_true',
    Option.some.injEq, eq_comm (a := f.name)]
  tauto

theorem acceptsSetter_iff {s : Method} {property : String} {t : HostType}
    (h : setterProperty? s.name = some property) (hparameters : s.parameters = [t]) (f : Field) :
    acceptsSetter property t f = true ↔ s.Assigns f ∧ f.hasSetter = false := by
  simp only [acceptsSetter, Method.Assigns, h, hparameters, Bool.and_eq_true, beq_iff_eq,
    Bool.not_eq_true', Option.some.injEq, eq_comm (a := f.name), List.cons.injEq, and_true,
    exists_eq_left']
  tauto

end Facade.Host.HostClass

namespace Facade.Record

open Host Outcome HostClass

variable {markers : Settings.Markers} {enums : List String} {c c' : HostClass}

theorem AddsGetter.linked {property : String} {g : HostClass.Method}
    (h : AddsGetter markers enums c property g c') (hlinked : c.Linked) : c'.Linked := by
  have hreads : ∀ f, g.Reads f → f.name = property :=
    fun f hf => Option.some.inj (hf.1.symm.trans h.named)
  have hname : ∀ f, acceptsGetter property g.returns f = true → f.name = property :=
    fun f hf => hreads f ((acceptsGetter_iff h.named f).mp hf).1
  have hmark : Neutral Method.Reads fun f => { f with hasGetter := true } :=
    neutral_reads (fun _ => rfl) fun _ => rfl
  have hother : Neutral Method.Assigns fun f => { f with hasGetter := true } :=
    neutral_assigns (fun _ => rfl) fun _ => rfl
  rw [h.result, addGetter]
  constructor
  . dsimp only
    rw [map_changeFirst hmark.name]
    exact hlinked.names
  . exact hlinked.getters.add hlinked.names hmark (fun _ => rfl) (acceptsGetter_iff h.named) hreads
      h.field
  . exact hlinked.setters.mapFirst (pairwise_of_name hlinked.names hname) hother fun _ => rfl
  . exact hlinked.bound

theorem AddsSetter.linked {property : String} {t : HostType} {s : HostClass.Method}
    (h : AddsSetter markers enums c property t s c') (hlinked : c.Linked) : c'.Linked := by
  have hassigns : ∀ f, s.Assigns f → f.name = property :=
    fun f hf => Option.some.inj (hf.1.symm.trans h.named)
  have hname : ∀ f, acceptsSetter property t f = true → f.name = property :=
    fun f hf => hassigns f ((acceptsSetter_iff h.named h.takes f).mp hf).1
  have hmark : Neutral Method.Assigns fun f => { f with hasSetter := true } :=
    neutral_assigns (fun _ => rfl) fun _ => rfl
  have hother : Neutral Method.Reads fun f => { f with hasSetter := true } :=
    neutral_reads (fun _ => rfl) fun _ => rfl
  obtain ⟨field, hfound, hfield⟩ := h.field
  rw [h.result, addSetter]
  constructor
  . dsimp only
    rw [map_changeFirst hmark.name]
    exact hlinked.names
  . exact hlinked.getters.mapFirst (pairwise_of_name hlinked.names hname) hother fun _ => rfl
  . exact hlinked.setters.add hlinked.names hmark (fun _ => rfl)
      (acceptsSetter_iff h.named h.takes) hassigns (by rw [hfield, hfound, Option.map_some])
  . rw [List.forall_mem_append, List.forall_mem_singleton, hfield, h.takes]
    exact ⟨hlinked.bound, rfl, rfl⟩

theorem linked_of_bindMethod (h : c.Linked) {m : Method}
    (hstep : bindMethod markers enums c m = .ok c') : c'.Linked := by
  obtain rfl | ⟨property, g, hadds⟩ | ⟨property, t, s, hadds⟩ := bindMethod_cases hstep
  . exact h
  . exact hadds.linked h
  . exact hadds.linked h

theorem linked_of_foldlM (h : c.Linked) {methods : List Method}
    (hsteps : methods.foldlM (bindMethod markers enums) c = .ok c') : c'.Linked :=
  foldlM_invariant (fun _ _ _ hlinked hstep => linked_of_bindMethod hlinked hstep) h hsteps

theorem linked_of_describe {r : Record} (h : describe markers enums r = .ok c) : c.Linked := by
  obtain ⟨-, rfl⟩ | ⟨-, fields, constructors, hfields, -, hmethods⟩ := describe_cases h
  . exact linked_of_unbound List.nodup_nil nofun rfl rfl
  . obtain ⟨hdescribed, hnames⟩ := describeFields_bound .nil List.nodup_nil hfields
    refine linked_of_foldlM (linked_of_unbound ?_ ?_ rfl rfl) hmethods
    . rw [map_eq_of_forall₂ hdescribed fun f g hfg => hfg.described.name]
      exact hnames
    . intro f hf
      obtain ⟨f', -, hfree⟩ := exists_of_mem_right hdescribed hf
      exact ⟨hfree.hasGetter, hfree.hasSetter⟩

theorem hasGetter_of_unbound {m : Method} (hstep : bindMethod markers enums c m = .ok c')
    {g : HostClass.Method} (hadded : c'.getters = c.getters ++ [g]) (hnone : g.field = none)
    {f : HostClass.Field} (hf : f ∈ c.fields) (hreads : g.Reads f) : f.hasGetter = true := by
  obtain rfl | ⟨property, g', hadds⟩ | ⟨property, t, s, hadds⟩ := bindMethod_cases hstep
  . simp at hadded
  . rw [hadds.result] at hadded
    cases List.append_cancel_left hadded
    have hfield := hadds.field
    rw [hnone, eq_comm, Option.map_eq_none_iff, List.find?_eq_none] at hfield
    have hfails := hfield f hf
    rw [acceptsGetter_iff hadds.named, not_and, Bool.not_eq_false] at hfails
    exact hfails hreads
  . rw [hadds.result] at hadded
    simp [addSetter] at hadded

/-- The flags of fields and the links of methods tell the same at every point while a class takes in
methods, if it starts without any. A getter that is for no field comes when no field that it reads is
without a getter. -/
theorem links_agree (start : HostClass) {final : HostClass}
    (hnames : (start.fields.map HostClass.Field.name).Nodup)
    (hfree : ∀ f ∈ start.fields, f.hasGetter = false ∧ f.hasSetter = false)
    (hgetters : start.getters = []) (hsetters : start.setters = []) (done todo : List Method)
    (h : (done ++ todo).foldlM (bindMethod markers enums) start = .ok final) :
    ∃ c, done.foldlM (bindMethod markers enums) start = .ok c ∧ c.Linked ∧
      ∀ m rest, todo = m :: rest → ∃ c', bindMethod markers enums c m = .ok c' ∧
        ∀ g, c'.getters = c.getters ++ [g] → g.field = none →
          ∀ f ∈ c.fields, g.Reads f → f.hasGetter = true := by
  rw [List.foldlM_append, bind_eq_ok_iff] at h
  obtain ⟨c, hdone, htodo⟩ := h
  refine ⟨c, hdone, ?_, ?_⟩
  . exact linked_of_foldlM (HostClass.linked_of_unbound hnames hfree hgetters hsetters) hdone
  . rintro m rest rfl
    rw [List.foldlM_cons, bind_eq_ok_iff] at htodo
    obtain ⟨c', hstep, -⟩ := htodo
    exact ⟨c', hstep, fun g hadded hnone f hf => hasGetter_of_unbound hstep hadded hnone hf⟩

def accountClass : HostClass :=
  { HostClass.plain "p.Account" with
    fields := [⟨"active", .plain .boolean, false, false, false⟩,
      ⟨"tags", .applied "java.util.List" [.plain .string], false, false, false⟩] }

/-- The first methods that fit are for the fields: not one of another type that comes before them, and
not another one that fits behind them. -/
theorem links_agree_account :
    ∃ c final, (accountRecord.publicMethods.take 3).foldlM (bindMethod .standard []) accountClass =
        .ok c ∧ c.Linked ∧
      accountRecord.publicMethods.foldlM (bindMethod .standard []) accountClass = .ok final ∧
      final.Linked ∧
      final.getters.map (fun g => (g.name, g.field)) =
        [("getTags", none), ("isActive", some "active"), ("getActive", none)] ∧
      final.setters.map (fun s => (s.name, s.field)) = [("setActive", some "active")] ∧
      final.fields.map (fun f => (f.hasGetter, f.hasSetter)) = [(true, true), (false, false)] := by
  have houtcome : (accountRecord.publicMethods.foldlM (bindMethod .standard []) accountClass).map
      (fun c => (c.getters.map fun g => (g.name, g.field), c.setters.map fun s => (s.name, s.field),
        c.fields.map fun f => (f.hasGetter, f.hasSetter))) =
        .ok ([("getTags", none), ("isActive", some "active"), ("getActive", none)],
          [("setActive", some "active")], [(true, true), (false, false)]) := by decide +kernel
  obtain ⟨final, hfinal, hlinks⟩ := map_eq_ok_iff.mp houtcome
  obtain ⟨hgetters, hlinks⟩ := Prod.mk.inj hlinks
  obtain ⟨hsetters, hflags⟩ := Prod.mk.inj hlinks
  obtain ⟨c, hc, hlinked, -⟩ := links_agree accountClass (by decide) (by decide) rfl rfl
    (accountRecord.publicMethods.take 3) (accountRecord.publicMethods.drop 3) hfinal
  obtain ⟨_, hall, hfinallinked, -⟩ := links_agree accountClass (by decide) (by decide) rfl rfl
    accountRecord.publicMethods [] (by rw [List.append_nil]; exact hfinal)
  cases hfinal.symm.trans hall
  exact ⟨c, final, hc, hlinked, hfinal, hfinallinked, hgetters, hsetters, hflags⟩

end Facade.Record
