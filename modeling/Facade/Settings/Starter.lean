import Facade.Files.Path
import Facade.Settings.Basic
import Facade.Text.Quoted

/-!
This module contains the settings file that a project starts with.
-/

namespace Facade.Settings

open Text Files

/-- The settings file that a project starts with. -/
structure Starter where
  language : Language := .scala
  inputs : List String := ["build/wrapgen"]

namespace Starter

def path (directory : Path) : Path :=
  Path.join directory "wrapgen.toml"

def opening (language : Language) : List String :=
  [
    "[generator]",
    "language = \"" ++ language.word ++ "\"",
    "package_suffix = \"wrappers\"",
    "output = \"src/main/scala\""
  ]

def inputsLine (inputs : List String) : String :=
  "inputs = [" ++ ", ".intercalate (inputs.map quote) ++ "]"

def remainder : List String :=
  [
    "# Worker threads for emission; 0 uses every available core",
    "jobs = 0",
    "",
    "# Annotations that mark a declaration non-null or nullable. Bare names",
    "# match any package; the defaults cover javax, jakarta, JetBrains, AndroidX,",
    "# Lombok, Checker Framework and FindBugs.",
    "# [nullability]",
    "# non_null = [\"javax.annotation.Nonnull\", \"NonNull\"]",
    "# nullable = [\"javax.annotation.Nullable\"]",
    "",
    "# Host types outside the batch, passed through unchanged:",
    "[external_types]",
    "# \"java.util.UUID\" = \"java.util.UUID\"",
    "# \"java.time.Instant\" = \"java.time.Instant\""
  ]

def render (starter : Starter) : String :=
  let lines := opening starter.language ++ [inputsLine starter.inputs] ++ remainder
  String.join (lines.map (· ++ "\n"))

end Starter

end Facade.Settings
