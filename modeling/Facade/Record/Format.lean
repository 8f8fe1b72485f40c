import Facade.Data.Shape
import Facade.Record.Basic

/-!
This module contains the form that class records have in a metadata file.
-/

namespace Facade

open Data Data.Decode

namespace Record

/-- The value of a list that is left out when it is empty. -/
def listValue? (items : List Tree) : Option Tree :=
  if items.isEmpty then none else some (.ofItems items)

def stringsSlot (name : String) (get : α → List String) (set : α → List String → α) : Slot α where
  name
  required := false
  put := fun t a => return set a (← list text t)
  value? := fun a => listValue? ((get a).map .text)

def textSlot (name : String) (required : Bool) (get : α → String) (set : α → String → α) :
    Slot α where
  name
  required
  put := fun t a => return set a (← text t)
  value? := fun a => some (.text (get a))

def modifierItems (modifiers : List Modifier) : List Tree :=
  modifiers.map fun m => .text m.word

def modifiersSlot (format : Format) (get : α → List Modifier) (set : α → List Modifier → α)
    (value? : List Modifier → Option Tree) : Slot α where
  name := "modifiers"
  required := false
  put := fun t a => return set a (← list (word format Modifier.words) t)
  value? := fun a => value? (get a)

def recordsSlot (format : Format) (name : String) (shape : Shape β) (get : α → List β)
    (set : α → List β → α) : Slot α where
  name
  required := false
  put := fun t a => return set a (← list (shape.read format) t)
  value? := fun a => listValue? ((get a).map shape.write)

def Field.shape (format : Format) : Shape Field where
  title := "RawField"
  blank := ⟨"", "", [], []⟩
  slots := [
    textSlot "name" true Field.name fun f name => { f with name },
    textSlot "type" true Field.type fun f type => { f with type },
    modifiersSlot format Field.modifiers (fun f modifiers => { f with modifiers })
      (listValue? <| modifierItems ·),
    stringsSlot "annotations" Field.annotations fun f annotations => { f with annotations }
  ]

def Parameter.shape : Shape Parameter where
  title := "RawParameter"
  blank := ⟨"", "", []⟩
  slots := [
    textSlot "name" true Parameter.name fun p name => { p with name },
    textSlot "type" true Parameter.type fun p type => { p with type },
    stringsSlot "annotations" Parameter.annotations fun p annotations => { p with annotations }
  ]

/-- The form of a constructor. It is public where nothing is said. -/
def Constructor.shape (format : Format) : Shape Constructor where
  title := "RawConstructor"
  blank := ⟨[], [.public]⟩
  slots := [
    {
      name := "parameters"
      required := false
      put := fun t c => return { c with parameters := ← list (Parameter.shape.read format) t }
      value? := fun c => some (.ofItems (c.parameters.map Parameter.shape.write))
    },
    modifiersSlot format Constructor.modifiers (fun c modifiers => { c with modifiers })
      fun modifiers => some (.ofItems (modifierItems modifiers))
  ]

/-- The form of a method. It is public and returns nothing where nothing is said. -/
def Method.shape (format : Format) : Shape Method where
  title := "RawMethod"
  blank := ⟨"", "void", [], [], [], [.public]⟩
  slots := [
    textSlot "name" true Method.name fun m name => { m with name },
    textSlot "returns" false Method.returns fun m returns => { m with returns },
    recordsSlot format "parameters" Parameter.shape Method.parameters
      fun m parameters => { m with parameters },
    stringsSlot "throws" Method.throws fun m throws => { m with throws },
    stringsSlot "annotations" Method.annotations fun m annotations => { m with annotations },
    modifiersSlot format Method.modifiers (fun m modifiers => { m with modifiers })
      fun modifiers => some (.ofItems (modifierItems modifiers))
  ]

def Kind.words : List (String × Kind) :=
  [("class", .class), ("enum", .enumeration)]

def Kind.word : Kind → String
  | .class => "class"
  | .enumeration => "enum"

/-- The form of a record. It is about a class where nothing is said. -/
def shape (format : Format) : Shape Record where
  title := "RawClass"
  blank := ⟨"", .class, [], [], [], [], []⟩
  slots := [
    textSlot "name" true Record.name fun r name => { r with name },
    {
      name := "kind"
      required := false
      put := fun t r => return { r with kind := ← Decode.word format Kind.words t }
      value? := fun r => some (.text r.kind.word)
    },
    stringsSlot "constants" Record.constants fun r constants => { r with constants },
    modifiersSlot format Record.modifiers (fun r modifiers => { r with modifiers })
      (listValue? <| modifierItems ·),
    recordsSlot format "fields" (Field.shape format) Record.fields fun r fields => { r with fields },
    recordsSlot format "constructors" (Constructor.shape format) Record.constructors
      fun r constructors => { r with constructors },
    recordsSlot format "methods" (Method.shape format) Record.methods
      fun r methods => { r with methods }
  ]

end Record

structure Metadata where
  classes : List Record
  deriving DecidableEq, Repr

def Metadata.shape (format : Format) : Shape Metadata where
  title := "MetadataFile"
  blank := ⟨[]⟩
  slots := [
    {
      name := "classes"
      required := false
      put := fun t m => return { m with classes := ← list ((Record.shape format).read format) t }
      value? := fun m => some (.ofItems (m.classes.map (Record.shape format).write))
    }
  ]

end Facade
