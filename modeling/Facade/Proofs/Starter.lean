import Facade.Proofs.Metadata
import Facade.Proofs.Toml.Lines
import Facade.Settings.Reader
import Facade.Settings.Starter

/-!
This module contains the proof of when the settings file that a project starts with can be read: the
inputs are quoted in it, but not all characters are quoted in the way of the format.
-/

namespace Facade

open Data Text Toml

namespace Data.Shape

variable {α : Type} {slots : List (Slot α)} {slot : Slot α} {key : String} {seen : List String}

theorem readEntries_cons (hslot : slots.find? (·.name == key) = some slot)
    (hseen : seen.contains key = false) {t : Tree} {a b : α} (hput : slot.put t a = .ok b)
    (index : Nat) (entries : List (String × Tree)) :
    readEntries slots index seen a ((key, t) :: entries) =
      readEntries slots (index + 1) (key :: seen) b entries := by
  rw [readEntries, hslot]
  dsimp only
  rw [hseen, hput]
  rfl

end Data.Shape

namespace Settings.Starter

/-- The settings that a starter stands for. -/
def settings (starter : Starter) : Settings :=
  { standard with
    generator := { Generator.standard with language := starter.language, inputs := starter.inputs } }

def generatorEntries (starter : Starter) : List (String × Tree) :=
  [
    ("language", .text starter.language.word),
    ("package_suffix", .text "wrappers"),
    ("output", .text "src/main/scala"),
    ("inputs", .ofStrings starter.inputs),
    ("jobs", .integer 0)
  ]

def tree (starter : Starter) : Tree :=
  .ofEntries
    [("generator", .ofEntries starter.generatorEntries), ("external_types", .ofEntries [])]

theorem read_generatorEntries (starter : Starter) :
    (Generator.shape .toml).read .toml (.ofEntries starter.generatorEntries) =
      .ok starter.settings.generator := by
  have hinputs : ∀ g : Generator,
      (do return { g with inputs := ← Decode.list Decode.text (.ofStrings starter.inputs) } :
        Decode Generator) = .ok { g with inputs := starter.inputs } := by
    intro g
    rw [Tree.ofStrings, (Decode.inverts_list Decode.inverts_text starter.inputs).1]
    rfl
  rw [Tree.ofEntries, Shape.read, generatorEntries, Shape.readEntries_cons rfl rfl rfl,
    Shape.readEntries_cons rfl rfl rfl, Shape.readEntries_cons rfl rfl rfl,
    Shape.readEntries_cons rfl rfl (hinputs _), Shape.readEntries_cons rfl rfl rfl]
  rfl

theorem read_tree (starter : Starter) :
    (shape .toml).read .toml starter.tree = .ok starter.settings := by
  have hgenerator : ∀ s : Settings,
      (do return { s with
        generator := ← (Generator.shape .toml).read .toml (.ofEntries starter.generatorEntries) } :
          Decode Settings) = .ok { s with generator := starter.settings.generator } := by
    intro s
    rw [read_generatorEntries]
    rfl
  rw [tree, Tree.ofEntries, Shape.read, Shape.readEntries_cons rfl rfl (hgenerator _),
    Shape.readEntries_cons rfl rfl rfl]
  rfl

theorem problem?_settings (text : String) (starter : Starter) :
    problem? text starter.settings = none := by
  have hsuffix : suffixProblem? starter.settings.generator.packageSuffix = none := by
    change suffixProblem? "wrappers" = none
    decide
  unfold problem?
  dsimp only
  rw [hsuffix]
  rfl

theorem opening_eq (language : Language) :
    opening language = [
      "[" ++ "generator" ++ "]",
      "language" ++ " = " ++ quote language.word,
      "package_suffix" ++ " = " ++ quote "wrappers",
      "output" ++ " = " ++ quote "src/main/scala"
    ] := by
  cases language
  decide

theorem inputsLine_eq (inputs : List String) : inputsLine inputs =
    "inputs" ++ " = " ++ ("[" ++ ", ".intercalate (inputs.map quote) ++ "]") := by
  rw [inputsLine, ← String.append_assoc, ← String.append_assoc]
  rfl

theorem remainder_eq : remainder = remainder.take 1 ++ ("jobs" ++ " = " ++ "0") ::
    ((remainder.drop 2).take 9 ++ ("[" ++ "external_types" ++ "]") :: remainder.drop 12) := rfl

def document (entries : Entries) : Document :=
  ⟨[("generator", .table .opened entries)], ["generator"]⟩

theorem readLines_document {key value : String} (hkey : IsKey key.toList) {tree : Tree}
    (hvalue : ReadsAs value.toList (some tree)) {entries : Entries}
    (hentries : entries.lookup key = none) (fuel : Nat) (lines : List String) :
    readLines (fuel + 1) (document entries) (lineTexts ((key ++ " = " ++ value) :: lines)) =
      readLines fuel (document (entries ++ [(key, .value tree)])) (lineTexts lines) := by
  have hput : (document entries).put? [key] tree =
      some (document (entries ++ [(key, .value tree)])) := by
    have hinner : Entries.put tree [key] entries = some (entries ++ [(key, .value tree)]) := by
      rw [Entries.put, hentries]
      rfl
    simp [Document.put?, document, Entries.change, hinner, Entries.replace]
  rw [readLines_entry hkey hvalue, Option.bind_some, hput, Option.bind_some]

theorem isKey_of_all {key : String} (hne : key.toList ≠ []) (h : key.toList.all isKeyChar = true) :
    IsKey key.toList :=
  ⟨hne, List.all_eq_true.mp h⟩

def lines (starter : Starter) : List String :=
  opening starter.language ++ inputsLine starter.inputs :: remainder

theorem toList_render (starter : Starter) : starter.render.toList = lineTexts starter.lines := by
  rw [render, String.toList_join, List.flatMap_map]
  simp only [lineTexts, String.toList_append]
  rfl

theorem readsAs_quote_of_portable {s : String} (h : isPortableText s = true) :
    ReadsAs (quote s).toList (some (.text s)) := by
  have hread := readsAs_quote s
  rwa [quoted?, h] at hread

theorem readLines_opening (language : Language) (fuel : Nat) (lines : List String) :
    readLines (fuel + 4) .empty (lineTexts (opening language ++ lines)) =
      readLines fuel (document [
        ("language", .value (.text language.word)),
        ("package_suffix", .value (.text "wrappers")),
        ("output", .value (.text "src/main/scala"))
      ]) (lineTexts lines) := by
  have hgenerator : IsKey "generator".toList := isKey_of_all (by decide) (by decide)
  have hlanguage : IsKey "language".toList := isKey_of_all (by decide) (by decide)
  have hsuffix : IsKey "package_suffix".toList := isKey_of_all (by decide) (by decide)
  have houtput : IsKey "output".toList := isKey_of_all (by decide) (by decide)
  have hword : isPortableText language.word = true := by
    cases language
    decide
  have hopened : Document.empty.header? ["generator"] false = some (document []) := rfl
  rw [opening_eq]
  simp only [List.cons_append, List.nil_append]
  rw [readLines_header hgenerator, hopened, Option.bind_some,
    readLines_document hlanguage (readsAs_quote_of_portable hword) rfl,
    readLines_document hsuffix (readsAs_quote_of_portable (by decide)) rfl,
    readLines_document houtput (readsAs_quote_of_portable (by decide)) rfl]
  rfl

theorem readLines_remainder {entries : Entries} (hentries : entries.lookup "jobs" = none)
    (fuel : Nat) :
    readLines (fuel + 3) (document entries) (lineTexts remainder) =
      some ⟨[
        ("generator", .table .opened (entries ++ [("jobs", .value (.integer 0))])),
        ("external_types", .table .opened [])
      ], ["external_types"]⟩ := by
  have hjobs : IsKey "jobs".toList := isKey_of_all (by decide) (by decide)
  have hexternal : IsKey "external_types".toList := isKey_of_all (by decide) (by decide)
  have hopened : ∀ entries, (document entries).header? ["external_types"] false =
      some ⟨[("generator", .table .opened entries), ("external_types", .table .opened [])],
        ["external_types"]⟩ :=
    fun _ => rfl
  rw [remainder_eq, readLines_silent (by decide), readLines_document hjobs readsAs_zero hentries,
    readLines_silent (by decide), readLines_header hexternal, hopened, Option.bind_some,
    ← List.append_nil (remainder.drop 12), readLines_silent (by decide)]
  rfl

/-- The file is a TOML text just if all inputs are quoted in the way of the format. -/
theorem parse_render (starter : Starter) :
    Toml.parse starter.render =
      if starter.inputs.all isPortableText then some starter.tree else none := by
  have hinputs : IsKey "inputs".toList := isKey_of_all (by decide) (by decide)
  have hparse : Toml.parse starter.render =
      (readLines ((lineTexts starter.lines).length + 1) .empty (lineTexts starter.lines)).map
        Document.tree := by
    rw [Toml.parse, toList_render]
    rfl
  -- no line is empty with its end, so the fuel is enough for one round a line
  obtain ⟨fuel, hfuel⟩ : ∃ fuel, (lineTexts starter.lines).length + 1 = fuel + 3 + 1 + 4 := by
    have hlength := length_le_lineTexts starter.lines
    have hlines : starter.lines.length = 19 := by simp [lines, opening, remainder]
    exact ⟨(lineTexts starter.lines).length - 7, by omega⟩
  have hvalue := readsAs_quotes starter.inputs
  rw [hparse, hfuel, lines, readLines_opening, inputsLine_eq]
  cases hall : starter.inputs.all isPortableText with
  | false =>
    rw [hall] at hvalue
    rw [readLines_entry hinputs hvalue]
    rfl
  | true =>
    rw [hall] at hvalue
    rw [readLines_document hinputs hvalue rfl, readLines_remainder rfl]
    rfl

end Settings.Starter

/-- The settings file that a project starts with is read as the settings that it was written for, if
every character of an input is visible, a tab, or the end of a line. Otherwise it is refused. -/
theorem Settings.starter_read_back (starter : Starter) :
    parse starter.render =
      if starter.inputs.all isPortableText then .ok starter.settings else .error .badToml := by
  rw [parse, starter.parse_render]
  cases starter.inputs.all isPortableText with
  | false => rfl
  | true =>
    simp only [↓reduceIte]
    rw [starter.read_tree]
    dsimp only
    rw [starter.problem?_settings]

/-- A starter with an input that has an accent as a character of its own. -/
def Settings.Starter.accented : Starter where
  inputs := ["donne\u0301es/classes.json"]

theorem Settings.accented_not_read_back : parse Starter.accented.render = .error .badToml := by
  have hrefused : Starter.accented.inputs.all isPortableText = false := by decide
  rw [parse, Starter.parse_render, hrefused]
  rfl

end Facade
