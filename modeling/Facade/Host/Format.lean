import Facade.Data.Shape
import Facade.Host.HostClass

/-!
This module contains the form in which descriptions of host classes are handed on.
-/

namespace Facade.Host

open Data Data.Decode

def TypeKind.words : List (String × TypeKind) :=
  [
    ("primitive", .plain), ("boxed_primitive", .boxed), ("enum", .enumeration),
    ("user_class", .object), ("parameterized", .applied)
  ]

def TypeKind.word : TypeKind → String
  | plain => "primitive"
  | boxed => "boxed_primitive"
  | enumeration => "enum"
  | object => "user_class"
  | applied => "parameterized"

namespace HostType

mutual

def write : HostType → Tree
  | mk kind name arguments nullable =>
    .ofEntries <| [("kind", .text kind.word), ("name", .text name)] ++
      (if arguments.isEmpty then [] else [("type_arguments", .ofItems (writeAll arguments))]) ++
      [("nullable", .flag nullable)]

def writeAll : List HostType → List Tree
  | [] => []
  | t :: ts => t.write :: writeAll ts

end

def shape (argument : Tree → Decode HostType) : Shape HostType where
  title := "TypeRef"
  blank := .mk .plain "" [] false
  slots := [
    {
      name := "kind"
      required := true
      put := fun t a => return .mk (← word .json TypeKind.words t) a.name a.arguments a.nullable
      value? := fun a => some (.text a.kind.word)
    },
    {
      name := "name"
      required := true
      put := fun t a => return .mk a.kind (← text t) a.arguments a.nullable
      value? := fun a => some (.text a.name)
    },
    {
      name := "type_arguments"
      required := false
      put := fun t a => return .mk a.kind a.name (← list argument t) a.nullable
      value? := fun a =>
        if a.arguments.isEmpty then none else some (.ofItems (a.arguments.map write))
    },
    {
      name := "nullable"
      required := true
      put := fun t a => return .mk a.kind a.name a.arguments (← flag t)
      value? := fun a => some (.flag a.nullable)
    }
  ]

def readTo : (depth : Nat) → Tree → Decode HostType
  | 0, _ => .fail .gap
  | depth + 1, t => (shape (readTo depth)).read .json t

def read (t : Tree) : Decode HostType :=
  readTo t.depth t

end HostType

namespace HostClass

def Field.shape : Shape Field where
  title := "FieldDescriptor"
  blank := ⟨"", .void, false, false, false⟩
  slots := [
    {
      name := "name"
      required := true
      put := fun t f => return { f with name := ← text t }
      value? := fun f => some (.text f.name)
    },
    {
      name := "type_ref"
      required := true
      put := fun t f => return { f with type := ← HostType.read t }
      value? := fun f => some f.type.write
    },
    {
      name := "is_final"
      required := true
      put := fun t f => return { f with isFinal := ← flag t }
      value? := fun f => some (.flag f.isFinal)
    },
    {
      name := "has_accessor"
      required := true
      put := fun t f => return { f with hasGetter := ← flag t }
      value? := fun f => some (.flag f.hasGetter)
    },
    {
      name := "has_mutator"
      required := true
      put := fun t f => return { f with hasSetter := ← flag t }
      value? := fun f => some (.flag f.hasSetter)
    }
  ]

def Parameter.shape : Shape Parameter where
  title := "Parameter"
  blank := ⟨"", .void⟩
  slots := [
    {
      name := "name"
      required := true
      put := fun t p => return { p with name := ← text t }
      value? := fun p => some (.text p.name)
    },
    {
      name := "type_ref"
      required := true
      put := fun t p => return { p with type := ← HostType.read t }
      value? := fun p => some p.type.write
    }
  ]

def Constructor.shape : Shape Constructor where
  title := "ConstructorDescriptor"
  blank := ⟨[]⟩
  slots := [
    {
      name := "parameters"
      required := true
      put := fun t c => return { c with parameters := ← list (Parameter.shape.read .json) t }
      value? := fun c => some (.ofItems (c.parameters.map Parameter.shape.write))
    }
  ]

def Method.shape : Shape Method where
  title := "MethodDescriptor"
  blank := ⟨"", [], .void, [], none⟩
  slots := [
    {
      name := "name"
      required := true
      put := fun t m => return { m with name := ← text t }
      value? := fun m => some (.text m.name)
    },
    {
      name := "parameters"
      required := true
      put := fun t m => return { m with parameters := ← list HostType.read t }
      value? := fun m => some (.ofItems (m.parameters.map HostType.write))
    },
    {
      name := "return_type"
      required := true
      put := fun t m => return { m with returns := ← HostType.read t }
      value? := fun m => some m.returns.write
    },
    {
      name := "declared_exceptions"
      required := false
      put := fun t m => return { m with throws := ← list text t }
      value? := fun m => if m.throws.isEmpty then none else some (.ofStrings m.throws)
    },
    {
      name := "field"
      required := false
      put := fun t m => return { m with field := ← text? t }
      value? := fun m => some (.ofString? m.field)
    }
  ]

def shape : Shape HostClass where
  title := "ClassDescriptor"
  blank := .plain ""
  slots := [
    {
      name := "qualified_name"
      required := true
      put := fun t c => return { c with name := ← text t }
      value? := fun c => some (.text c.name)
    },
    {
      name := "fields"
      required := true
      put := fun t c => return { c with fields := ← list (Field.shape.read .json) t }
      value? := fun c => some (.ofItems (c.fields.map Field.shape.write))
    },
    {
      name := "constructors"
      required := true
      put := fun t c => return { c with constructors := ← list (Constructor.shape.read .json) t }
      value? := fun c => some (.ofItems (c.constructors.map Constructor.shape.write))
    },
    {
      name := "accessors"
      required := true
      put := fun t c => return { c with getters := ← list (Method.shape.read .json) t }
      value? := fun c => some (.ofItems (c.getters.map Method.shape.write))
    },
    {
      name := "mutators"
      required := true
      put := fun t c => return { c with setters := ← list (Method.shape.read .json) t }
      value? := fun c => some (.ofItems (c.setters.map Method.shape.write))
    },
    {
      name := "is_enum"
      required := true
      put := fun t c => return { c with isEnum := ← flag t }
      value? := fun c => some (.flag c.isEnum)
    },
    {
      name := "enum_constants"
      required := true
      put := fun t c => return { c with constants := ← list text t }
      value? := fun c => some (.ofStrings c.constants)
    }
  ]

end HostClass

end Facade.Host
