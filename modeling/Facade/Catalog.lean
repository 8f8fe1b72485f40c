import Facade.Data.Dictionary
import Facade.Host.HostClass
import Facade.Refusal
import Facade.Settings.Basic

/-!
This module contains the catalog of a batch: which classes get a wrapper, and where it is put.
-/

namespace Facade

open Data Host

namespace Catalog

structure Entry where
  /-- The qualified name of the class. -/
  className : String
  package : String
  /-- The name of the wrapper before it is escaped. -/
  name : String
  isEnum : Bool
  deriving DecidableEq, Repr

def Entry.qualifiedName (e : Entry) : String :=
  if e.package.isEmpty then e.name else e.package ++ "." ++ e.name

def Entry.ofClass (settings : Settings) (c : HostClass) : Entry where
  className := c.name
  package := settings.wrapperPackage c.package
  name := pascalCase c.simpleName
  isEnum := c.isEnum

end Catalog

/-- The wrappers of a batch, and the target types that stand for types outside of it. -/
structure Catalog where
  entries : Dictionary Catalog.Entry
  externalTypes : Dictionary String
  deriving Repr

namespace Catalog

def get? (catalog : Catalog) (className : String) : Option Entry :=
  catalog.entries.get? className

def external? (catalog : Catalog) (typeName : String) : Option String :=
  catalog.externalTypes.get? typeName

def has (catalog : Catalog) (className : String) : Bool :=
  catalog.entries.has className

def insert (entry : Entry) (catalog : Catalog) : Catalog :=
  { catalog with entries := catalog.entries.insert entry.className entry }

def erase (className : String) (catalog : Catalog) : Catalog :=
  { catalog with entries := catalog.entries.erase className }

/-- A catalog that is being made: whose wrappers are where, and which classes found theirs taken. -/
structure Draft where
  catalog : Catalog
  /-- The owners of packages and names. -/
  owners : List ((String × String) × String)
  failures : List Failure

/-- Puts the wrapper of a class into a draft, unless an earlier class has a wrapper of its name. -/
def Draft.add (settings : Settings) (draft : Draft) (c : HostClass) : Draft :=
  let entry := Entry.ofClass settings c
  match draft.owners.lookup (entry.package, entry.name) with
  | some owner =>
    let refusal := Refusal.clash entry.qualifiedName (.wrapperTaken owner)
    { draft with failures := draft.failures ++ [⟨c.name, refusal⟩] }
  | none =>
    {
      draft with
      catalog := draft.catalog.insert entry
      owners := ((entry.package, entry.name), c.name) :: draft.owners
    }

/-- The catalog of some classes. The first of several classes with one wrapper name keeps it. -/
def ofClasses (settings : Settings) (classes : List HostClass) : Catalog × List Failure :=
  let start : Draft := ⟨⟨[], settings.externalTypes⟩, [], []⟩
  let draft := classes.foldl (Draft.add settings) start
  (draft.catalog, draft.failures)

def Entry.shadowFailure (e : Entry) : Failure :=
  ⟨e.className, .clash e.qualifiedName (.shadowsStandard e.name)⟩

/-- The catalog without the wrappers whose names satisfy a test, and the failures of their classes. -/
def rejectNames (test : String → Bool) (catalog : Catalog) : Catalog × List Failure :=
  -- entries are in the order of the names of their classes, and so are the failures
  let rejected := catalog.entries.filter fun (_, e) => test e.name
  let kept := catalog.entries.filter fun (_, e) => !test e.name
  ({ catalog with entries := kept }, rejected.map fun (_, e) => e.shadowFailure)

end Catalog

end Facade
