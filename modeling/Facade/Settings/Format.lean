import Facade.Data.Shape
import Facade.Settings.Basic

/-!
This module contains the form that settings have in a file.
-/

namespace Facade

open Data Data.Decode

namespace Settings

def Language.words : List (String × Language) :=
  [("scala", .scala)]

def Generator.shape (format : Format) : Shape Generator where
  title := "GeneratorConfig"
  blank := .standard
  slots := [
    {
      name := "language"
      required := false
      put := fun t g => return { g with language := ← word format Language.words t }
      value? := fun g => some (.text g.language.word)
    },
    {
      name := "package_suffix"
      required := false
      put := fun t g => return { g with packageSuffix := ← text t }
      value? := fun g => some (.text g.packageSuffix)
    },
    {
      name := "output"
      required := false
      put := fun t g => return { g with output := ← text t }
      value? := fun g => some (.text g.output)
    },
    {
      name := "inputs"
      required := false
      put := fun t g => return { g with inputs := ← list text t }
      value? := fun g => some (.ofStrings g.inputs)
    },
    {
      name := "jobs"
      required := false
      put := fun t g => return { g with jobs := ← count t }
      value? := fun g => some (.integer g.jobs)
    }
  ]

def Markers.shape : Shape Markers where
  title := "NullabilityConfig"
  blank := .standard
  slots := [
    {
      name := "non_null"
      required := false
      put := fun t m => return { m with nonNull := ← list text t }
      value? := fun m => some (.ofStrings m.nonNull)
    },
    {
      name := "nullable"
      required := false
      put := fun t m => return { m with nullable := ← list text t }
      value? := fun m => some (.ofStrings m.nullable)
    }
  ]

def stringsTree (dictionary : Dictionary String) : Tree :=
  .ofEntries (dictionary.map fun (key, value) => (key, .text value))

def shape (format : Format) : Shape Settings where
  title := "Manifest"
  blank := .standard
  slots := [
    {
      name := "generator"
      required := false
      put := fun t s => return { s with generator := ← (Generator.shape format).read format t }
      value? := fun s => some ((Generator.shape format).write s.generator)
    },
    {
      name := "nullability"
      required := false
      put := fun t s => return { s with markers := ← Markers.shape.read format t }
      value? := fun s => some (Markers.shape.write s.markers)
    },
    {
      name := "external_types"
      required := false
      put := fun t s => return { s with externalTypes := .ofPairs (← strings t) }
      value? := fun s => some (stringsTree s.externalTypes)
    }
  ]

end Settings

end Facade
