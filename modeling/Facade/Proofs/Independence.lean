import Facade.Proofs.Alike.Registration
import Facade.Proofs.Alike.Rounds
import Facade.Proofs.Results

/-!
This module contains the proofs about how far the records of a batch depend on one another: a record
that is flawed makes no difference to the others, and neither does the order of the records, if no two
of them compete for the name of a wrapper.
-/

namespace Facade.Batch

open Data Host Outcome Scala

namespace Generator

variable {enums enums' : List String}

theorem ofRecords_of_nodup (settings : Settings) (enums : List String) {records : List Record}
    (hnames : (records.map Record.name).Nodup) :
    ofRecords settings enums records = ofExtraction settings
      ⟨records.filterMap (Record.described? settings.markers enums),
        records.filterMap (Record.flaw? settings.markers enums)⟩ := by
  rw [ofRecords, Record.extract_eq_filterMap settings.markers enums hnames]

/-- Descriptions that are the same but for which classes are known to be enumerations come to
generators whose classes stand for each other. -/
theorem ofExtraction_alike (settings : Settings) {classes classes' : List HostClass}
    (failures failures' : List Failure)
    (h : List.Forall₂ (HostClass.Alike enums enums') classes classes') :
    let g := ofExtraction settings ⟨classes, failures⟩
    let g' := ofExtraction settings ⟨classes', failures'⟩
    List.Forall₂ HostClass.Interchangeable g.classes g'.classes ∧ g.catalog = g'.catalog ∧
      ∃ added, g.failures = failures ++ added ∧ g'.failures = failures' ++ added := by
  have hregistered : Catalog.ofClasses settings classes = Catalog.ofClasses settings classes' :=
    Catalog.ofClasses_congr (h.imp fun c c' hc => ⟨hc.name, hc.isEnum⟩)
  unfold ofExtraction
  dsimp only
  rw [classes_ofCatalog, classes_ofCatalog, hregistered]
  refine ⟨?_, rfl, _, List.append_assoc _ _ _, List.append_assoc _ _ _⟩
  apply forall₂_filter (h.imp fun c c' hc => hc.interchangeable)
  exact fun c c' hc => by rw [hc.name]

theorem ofExtraction_perm (settings : Settings) {classes classes' : List HostClass}
    {failures failures' : List Failure} (hclasses : classes.Perm classes')
    (hfailures : failures.Perm failures') (hnames : (classes.map HostClass.name).Nodup)
    (hplaces : (classes.map fun c => Catalog.wrapperPlace settings c.name).Nodup) :
    let g := ofExtraction settings ⟨classes, failures⟩
    let g' := ofExtraction settings ⟨classes', failures'⟩
    g.classes.Perm g'.classes ∧ g.catalog = g'.catalog ∧ g.failures.Perm g'.failures := by
  have hregistered : Catalog.ofClasses settings classes = Catalog.ofClasses settings classes' :=
    Catalog.ofClasses_perm hclasses hnames hplaces
  unfold ofExtraction
  dsimp only
  rw [classes_ofCatalog, classes_ofCatalog, hregistered]
  exact ⟨hclasses.filter _, rfl, (hfailures.append_right _).append_right _⟩

end Generator

/-- The classes of a batch with a flawed record stand for those of the batch without it. -/
theorem Generator.ofRecords_of_flawed {settings : Settings} {before after : List Record} {r : Record}
    {refusal : Refusal} (hnames : ((before ++ r :: after).map Record.name).Nodup)
    (enums enums' : List String)
    (hflawed : Record.describe settings.markers enums r = .error refusal) :
    let g := ofRecords settings enums (before ++ r :: after)
    let g' := ofRecords settings enums' (before ++ after)
    List.Forall₂ HostClass.Interchangeable g.classes g'.classes ∧ g.catalog = g'.catalog ∧
      ∃ first rest, g.failures = first ++ ⟨r.name, refusal⟩ :: rest ∧
        g'.failures = first ++ rest := by
  have hothers : ((before ++ after).map Record.name).Nodup := by
    rw [List.map_append, List.map_cons] at hnames
    rw [List.map_append]
    exact (List.nodup_middle.mp hnames).of_cons
  have hextracted : (before ++ r :: after).filterMap (Record.described? settings.markers enums) =
      (before ++ after).filterMap (Record.described? settings.markers enums) := by
    have hnone : Record.described? settings.markers enums r = none := by
      rw [Record.described?, hflawed]
    rw [List.filterMap_append, List.filterMap_append, List.filterMap_cons_none hnone]
  -- which records are flawed does not depend on which enumerations are known
  have hflaws : (before ++ r :: after).filterMap (Record.flaw? settings.markers enums) =
      before.filterMap (Record.flaw? settings.markers enums') ++
        ⟨r.name, refusal⟩ :: after.filterMap (Record.flaw? settings.markers enums') := by
    have hsome : Record.flaw? settings.markers enums r = some ⟨r.name, refusal⟩ := by
      rw [Record.flaw?, hflawed]
    rw [List.filterMap_append, List.filterMap_cons_some hsome, Record.flaw?_eq enums enums']
  dsimp only
  rw [ofRecords_of_nodup settings enums hnames, ofRecords_of_nodup settings enums' hothers,
    hextracted, hflaws]
  obtain ⟨hclasses, hcatalog, added, hadded, hadded'⟩ := ofExtraction_alike settings
    (before.filterMap (Record.flaw? settings.markers enums') ++
      ⟨r.name, refusal⟩ :: after.filterMap (Record.flaw? settings.markers enums'))
    ((before ++ after).filterMap (Record.flaw? settings.markers enums'))
    (Record.forall₂_described settings.markers enums enums' (before ++ after))
  rw [List.append_assoc, List.cons_append] at hadded
  refine ⟨hclasses, hcatalog, _, _, hadded, ?_⟩
  rw [hadded', List.filterMap_append, List.append_assoc]

/-- A flawed record makes no difference to the others. The batch without it comes to the same files in
the same order, and to the same failures in the same order but for its own one. -/
theorem flawed_record_invisible (settings : Settings) (before after : List Record) {r : Record}
    {refusal : Refusal} (hnames : ((before ++ r :: after).map Record.name).Nodup)
    (hflawed : Record.describe settings.markers (Record.enumNames (before ++ r :: after)) r =
      .error refusal) :
    (∃ result, Yields settings (before ++ r :: after) result) ∧
    (∃ result', Yields settings (before ++ after) result') ∧
    ∀ result result', Yields settings (before ++ r :: after) result →
      Yields settings (before ++ after) result' →
        result.generated = result'.generated ∧
        ∃ first rest, result.failures = first ++ ⟨r.name, refusal⟩ :: rest ∧
          result'.failures = first ++ rest ∧ ∀ failure ∈ first ++ rest, failure.className ≠ r.name := by
  refine ⟨exists_yields settings _, exists_yields settings _, ?_⟩
  intro result result' h h'
  obtain ⟨jobs, processors, hresult⟩ := h.cases
  obtain ⟨jobs', processors', hresult'⟩ := h'.cases
  obtain ⟨hclasses, hcatalog, first, rest, hfirst, hfirst'⟩ :=
    Generator.ofRecords_of_flawed hnames _ (Record.enumNames (before ++ after)) hflawed
  obtain ⟨hgenerated, added, hadded, hadded'⟩ := Generator.generate_of_alike hresult
    hresult' (Generator.wellFormed_ofRecords _ _ _).withWorkers
    (Generator.wellFormed_ofRecords _ _ _).withWorkers hclasses hcatalog
  have hfailures : result.failures = first ++ ⟨r.name, refusal⟩ :: (rest ++ added) := by
    rw [hadded, Generator.failures_withWorkers, hfirst, List.append_assoc, List.cons_append]
  have hfailures' : result'.failures = first ++ (rest ++ added) := by
    rw [hadded', Generator.failures_withWorkers, hfirst', List.append_assoc]
  refine ⟨hgenerated, first, rest ++ added, hfailures, hfailures', ?_⟩
  rw [← hfailures']
  intro failure hfailure hname
  have hmem := h'.accounts.subset
    (List.mem_append_right _ (List.mem_map_of_mem hfailure))
  rw [hname, List.map_append] at hmem
  rw [List.map_append, List.map_cons] at hnames
  exact (List.nodup_cons.mp (List.nodup_middle.mp hnames)).1 hmem

def enumRecord (name : String) (constants : List String) : Record :=
  { Report.readerRecord name [] with kind := .enumeration, constants }

def kindSettings : Settings :=
  { Settings.standard with externalTypes := [("p.Kind", "q.Kind")] }

def itemRecord : Record :=
  Report.readerRecord "p.Item" [("getKind", "p.Kind"), ("getKinds", "java.util.List<p.Kind>")]

def orphanRecord : Record :=
  Report.readerRecord "p.Orphan" [("getMissing", "q.Missing")]

set_option maxRecDepth 10000 in
/-- The enumeration has a constant twice, and so the type from the settings stands in for it. -/
theorem flawed_record_invisible_enum :
    ∃ result result',
      Yields kindSettings [itemRecord, enumRecord "p.Kind" ["ON", "ON"], orphanRecord] result ∧
      Yields kindSettings [itemRecord, orphanRecord] result' ∧
      result.generated.map Prod.fst = ["p.Item"] ∧ result.generated = result'.generated ∧
      result.failures.map Failure.className = ["p.Kind", "p.Orphan"] ∧
      result'.failures.map Failure.className = ["p.Orphan"] := by
  have hflawed : Record.describe kindSettings.markers ["p.Kind"]
      (enumRecord "p.Kind" ["ON", "ON"]) = .error (.flawed "p.Kind.ON" .repeatedConstant) := rfl
  have houtcome : (outcomeOf kindSettings
      [itemRecord, enumRecord "p.Kind" ["ON", "ON"], orphanRecord]).map (fun result =>
        (result.generated.map Prod.fst, result.failures.map Failure.className)) =
      .ok (["p.Item"], ["p.Kind", "p.Orphan"]) := by decide +kernel
  obtain ⟨result, hresult, hnames⟩ := map_eq_ok_iff.mp houtcome
  obtain ⟨hgenerated, hfailures⟩ := Prod.mk.inj hnames
  have hyields := yields_of_outcomeOf hresult
  obtain ⟨-, ⟨result', hyields'⟩, hsame⟩ :=
    flawed_record_invisible kindSettings [itemRecord] [orphanRecord] (by decide) hflawed
  obtain ⟨hfiles, first, rest, hfirst, hfirst', hothers⟩ := hsame result result' hyields hyields'
  refine ⟨result, result', hyields, hyields', hgenerated, hfiles, hfailures, ?_⟩
  rw [hfirst] at hfailures
  rw [hfirst']
  cases first with
  | nil => exact (List.cons.inj hfailures).2
  | cons failure first => exact absurd (List.cons.inj hfailures).1 (hothers failure List.mem_cons_self)

theorem Generator.ofRecords_of_perm {settings : Settings} {records records' : List Record}
    (hperm : records.Perm records')
    (hplaces : (records.map fun r => Catalog.wrapperPlace settings r.name).Nodup)
    (enums : List String) :
    let g := ofRecords settings enums records
    let g' := ofRecords settings enums records'
    g.classes.Perm g'.classes ∧ g.catalog = g'.catalog ∧ g.failures.Perm g'.failures := by
  have hnames : (records.map Record.name).Nodup := by
    apply List.Nodup.of_map (Catalog.wrapperPlace settings)
    rwa [List.map_map]
  dsimp only
  rw [ofRecords_of_nodup settings enums hnames,
    ofRecords_of_nodup settings enums ((hperm.map _).nodup_iff.mp hnames)]
  apply ofExtraction_perm settings (hperm.filterMap _) (hperm.filterMap _)
  . exact hnames.sublist (Record.map_described_sublist id records)
  . exact hplaces.sublist (Record.map_described_sublist (Catalog.wrapperPlace settings) records)

/-- Records are described alike whichever classes are known to be enumerations. -/
theorem Generator.ofRecords_of_enums (settings : Settings) (enums enums' : List String)
    {records : List Record} (hnames : (records.map Record.name).Nodup) :
    let g := ofRecords settings enums records
    let g' := ofRecords settings enums' records
    List.Forall₂ HostClass.Interchangeable g.classes g'.classes ∧ g.catalog = g'.catalog ∧
      g.failures = g'.failures := by
  dsimp only
  rw [ofRecords_of_nodup settings enums hnames, ofRecords_of_nodup settings enums' hnames,
    Record.flaw?_eq enums enums']
  obtain ⟨hclasses, hcatalog, added, hadded, hadded'⟩ := ofExtraction_alike settings
    (records.filterMap (Record.flaw? settings.markers enums'))
    (records.filterMap (Record.flaw? settings.markers enums'))
    (Record.forall₂_described settings.markers enums enums' records)
  exact ⟨hclasses, hcatalog, hadded.trans hadded'.symm⟩

/-- The order of records makes no difference if no two of them compete for the package and the name of
a wrapper, as two records of one class would. The batches come to the same file for each class, and to
the same failures in another order. -/
theorem record_order_irrelevant {settings : Settings} {records records' : List Record}
    (hperm : records.Perm records')
    (hplaces : (records.map fun r => Catalog.wrapperPlace settings r.name).Nodup) :
    (∃ result, Yields settings records result) ∧
    (∃ result', Yields settings records' result') ∧
    ∀ result result', Yields settings records result → Yields settings records' result' →
      (∀ className, result.generated.lookup className = result'.generated.lookup className) ∧
      result.generated.Perm result'.generated ∧ result.failures.Perm result'.failures := by
  have hnames : (records.map Record.name).Nodup := by
    apply List.Nodup.of_map (Catalog.wrapperPlace settings)
    rwa [List.map_map]
  refine ⟨exists_yields settings _, exists_yields settings _, ?_⟩
  intro result result' h h'
  obtain ⟨jobs, processors, hresult⟩ := h.cases
  obtain ⟨jobs', processors', hresult'⟩ := h'.cases
  -- the records in their new order, with the enumerations of the old one, come in between
  obtain ⟨between, hbetween⟩ := Generator.exists_generate
    (g := Generator.ofRecords settings (Record.enumNames records) records')
    (Generator.wellFormed_ofRecords _ _ _) fun c hc => Generator.intact_ofRecords hc
  obtain ⟨hclasses, hcatalog, hfailures⟩ := Generator.ofRecords_of_perm hperm hplaces
    (Record.enumNames records)
  obtain ⟨hgenerated, hfailed⟩ := Generator.generate_of_perm hresult hbetween
    (Generator.wellFormed_ofRecords _ _ _).withWorkers (Generator.wellFormed_ofRecords _ _ _)
    hclasses hcatalog hfailures
  obtain ⟨hclasses', hcatalog', hfailures'⟩ := Generator.ofRecords_of_enums settings
    (Record.enumNames records) (Record.enumNames records') ((hperm.map _).nodup_iff.mp hnames)
  obtain ⟨hsame, added, hadded, hadded'⟩ := Generator.generate_of_alike hbetween hresult'
    (Generator.wellFormed_ofRecords _ _ _) (Generator.wellFormed_ofRecords _ _ _).withWorkers
    hclasses' hcatalog'
  have hsamefailures : between.failures = result'.failures := by
    rw [hadded, hadded', hfailures', Generator.failures_withWorkers]
  rw [hsame] at hgenerated
  rw [hsamefailures] at hfailed
  have hkeys : (Dictionary.keys result.generated).Nodup :=
    (h.accounts.nodup_iff.mpr hnames).of_append_left
  exact ⟨Dictionary.get?_eq_of_perm hkeys hgenerated, hgenerated, hfailed⟩

def chainRecords : List Record := [
  itemRecord,
  Report.readerRecord "p.First" [("getSecond", "p.Second"), ("getItem", "p.Item")],
  enumRecord "p.Kind" ["ON", "OFF"],
  Report.readerRecord "p.Second" [("getMissing", "q.Missing"), ("getKind", "p.Kind")],
  Report.readerRecord "q.Item" [("getItem", "p.Item")]
]

set_option maxRecDepth 10000 in
/-- A class that uses one which is missing fails in the first round, and its user in the second. -/
theorem record_order_irrelevant_reverse :
    ∃ result result', Yields Settings.standard chainRecords result ∧
      Yields Settings.standard chainRecords.reverse result' ∧
      result.generated.map Prod.fst = ["p.Item", "p.Kind", "q.Item"] ∧
      result.failures.map Failure.className = ["p.Second", "p.First"] ∧
      (∀ className, result.generated.lookup className = result'.generated.lookup className) ∧
      result.failures.Perm result'.failures := by
  have houtcome : (outcomeOf Settings.standard chainRecords).map (fun result =>
      (result.generated.map Prod.fst, result.failures.map Failure.className)) =
      .ok (["p.Item", "p.Kind", "q.Item"], ["p.Second", "p.First"]) := by decide +kernel
  obtain ⟨result, hresult, hnames⟩ := map_eq_ok_iff.mp houtcome
  obtain ⟨hgenerated, hfailures⟩ := Prod.mk.inj hnames
  have hyields := yields_of_outcomeOf hresult
  have hplaces : (chainRecords.map fun r =>
      Catalog.wrapperPlace Settings.standard r.name).Nodup := by decide
  obtain ⟨-, ⟨result', hyields'⟩, hsame⟩ :=
    record_order_irrelevant (List.reverse_perm chainRecords).symm hplaces
  obtain ⟨hfiles, -, hfailed⟩ := hsame result result' hyields hyields'
  exact ⟨result, result', hyields, hyields', hgenerated, hfailures, hfiles, hfailed⟩

end Facade.Batch
