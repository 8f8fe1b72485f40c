import Facade.Data.Dictionary
import Facade.Host.Name

/-!
This module contains the settings of a run: where wrappers are put, which annotations tell whether
a value may be absent, and which target types stand for host types outside of the batch.
-/

namespace Facade

open Data Host

namespace Settings

inductive Language where
  | scala
  deriving DecidableEq, Repr

def Language.word : Language → String
  | scala => "scala"

def Language.extension : Language → String
  | scala => "scala"

/-- The language of a name that a user may give it, in any case. -/
def Language.ofName? (name : String) : Option Language :=
  let lowered := String.ofList (name.toList.flatMap Text.lower)
  if ["scala", "scala2", "scala-2.13"].contains lowered then some scala else none

def Language.unknownMessage (name : String) : String :=
  s!"unknown language '{name}', expected 'scala'"

/-- What is written, and where. -/
structure Generator where
  language : Language
  /-- What is appended to the package of a class to give the package of its wrapper. -/
  packageSuffix : String
  output : String
  inputs : List String
  /-- The number of workers. Zero stands for as many as there are processors. -/
  jobs : Nat
  deriving DecidableEq, Repr

/-- The annotations that tell whether a value may be absent. -/
structure Markers where
  nonNull : List String
  nullable : List String
  deriving DecidableEq, Repr

end Settings

structure Settings where
  generator : Settings.Generator
  markers : Settings.Markers
  /-- The target types that stand for host types outside of the batch. -/
  externalTypes : Dictionary String
  deriving Repr

namespace Settings

def Generator.standard : Generator where
  language := .scala
  packageSuffix := "wrappers"
  output := "src/main/scala"
  inputs := []
  jobs := 0

/-- The annotations that are known where nothing else is said. -/
def Markers.standard : Markers where
  nonNull := [
    "javax.annotation.Nonnull",
    "jakarta.annotation.Nonnull",
    "org.jetbrains.annotations.NotNull",
    "androidx.annotation.NonNull",
    "lombok.NonNull",
    "org.checkerframework.checker.nullness.qual.NonNull",
    "edu.umd.cs.findbugs.annotations.NonNull"
  ]
  nullable := [
    "javax.annotation.Nullable",
    "jakarta.annotation.Nullable",
    "org.jetbrains.annotations.Nullable",
    "androidx.annotation.Nullable",
    "org.checkerframework.checker.nullness.qual.Nullable",
    "edu.umd.cs.findbugs.annotations.Nullable"
  ]

/-- The settings where nothing is said. -/
def standard : Settings where
  generator := .standard
  markers := .standard
  externalTypes := []

/-- The package for the wrappers of the classes of a package. -/
def wrapperPackage (settings : Settings) (package : String) : String :=
  if package.isEmpty then settings.generator.packageSuffix
  else package ++ "." ++ settings.generator.packageSuffix

/--
Whether an annotation is the one that a marker names. A marker with a dot names an annotation in
full, and any other marker by its simple name.
-/
def markerMatches (marker given : String) : Bool :=
  let name := String.ofList (given.toList.dropWhile (· == '@'))
  if marker.toList.contains '.' then marker == name
  else simpleNameOf name == marker

def anyMatches (markers annotations : List String) : Bool :=
  annotations.any fun given => markers.any (markerMatches · given)

def Markers.saysNonNull (markers : Markers) (annotations : List String) : Bool :=
  anyMatches markers.nonNull annotations

def Markers.saysNullable (markers : Markers) (annotations : List String) : Bool :=
  anyMatches markers.nullable annotations

end Settings

end Facade
