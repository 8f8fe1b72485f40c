import Facade.Host.HostClass
import Facade.Record.Basic
import Facade.Record.Property
import Facade.Refusal
import Facade.Settings.Basic

/-!
This module contains the step from records to descriptions of classes: types are read, and methods
that read or assign a value are bound to the fields they belong to.
-/

namespace Facade.Record

open Text Host Settings

/-- The outcome of describing a part of a class. -/
abbrev Described := Except Refusal

/-- The classes of `java.lang` that a type may name without their package. -/
def implicitClasses : List String :=
  [
    "Boolean", "Byte", "Character", "CharSequence", "Double", "Float", "Integer", "Iterable",
    "Long", "Number", "Object", "Short", "String"
  ]

/-- The exceptions of `java.lang`, which may be named without their package. -/
def implicitExceptions : List String :=
  [
    "ArithmeticException", "ArrayIndexOutOfBoundsException", "ArrayStoreException",
    "AssertionError", "ClassCastException", "ClassNotFoundException",
    "CloneNotSupportedException", "Error", "Exception", "IllegalAccessException",
    "IllegalArgumentException", "IllegalMonitorStateException", "IllegalStateException",
    "IndexOutOfBoundsException", "InstantiationException", "InterruptedException",
    "NegativeArraySizeException", "NoSuchFieldException", "NoSuchMethodException",
    "NullPointerException", "NumberFormatException", "OutOfMemoryError",
    "ReflectiveOperationException", "RuntimeException", "SecurityException",
    "StackOverflowError", "StringIndexOutOfBoundsException", "Throwable",
    "UnsupportedOperationException"
  ]

def isIdentifier (text : List Char) : Bool :=
  match text with
  | [] => false
  | c :: cs =>
    (isLetter c || c == '_' || c == '$') && cs.all fun c => isWordChar c || c == '_' || c == '$'

def isQualifiedName (text : String) : Bool :=
  (pieces (· == '.') text.toList).all isIdentifier

def memberName (className member : String) : String :=
  className ++ "." ++ member

def methodName (className method : String) : String :=
  className ++ "." ++ method ++ "()"

def constructorParameterName (className : String) (index : Nat) (parameter : String) : String :=
  s!"{className}.<init>#{index}.{parameter}"

def elementName (name : String) : String :=
  String.ofList (go name.toList.reverse).reverse
where
  go : List Char → List Char
    -- the name comes in reverse, its last brackets first
    | ']' :: '[' :: rest => go rest
    | rest => rest

/-- A type name with the package that it leaves out. -/
def fullName (name : String) : String :=
  if implicitClasses.contains (elementName name) then "java.lang." ++ name else name

/-- The type of a name without arguments, given the enumerations of the batch. -/
def simpleType (enums : List String) (name : String) : HostType :=
  -- scalars come first: no class of the batch stands in for one
  match Scalar.ofPlain? name, Scalar.ofBoxed? name with
  | some s, _ => .plain s
  | none, some s => .boxed s
  | none, none => if enums.contains name then .enumeration name else .object name

mutual

/-- The type that a signature stands for. All its arguments but the primitive ones may be absent. -/
def typeOf (enums : List String) : Signature → HostType
  | .mk name [] => simpleType enums (fullName name)
  | .mk name (a :: as) => .applied (fullName name) (typeOf enums a :: typesOf enums as)

def typesOf (enums : List String) : List Signature → List HostType
  | [] => []
  | a :: as => typeOf enums a :: typesOf enums as

end

def readType (enums : List String) (member source : String) : Described HostType :=
  if trimmed source = "void" then .error (.flawed member .voidValue)
  else
    match Signature.parse source.toList with
    | .ok signature => .ok (typeOf enums signature)
    | .error error => .error (.flawed member (.badType source error))

def readDeclaredType (markers : Markers) (enums : List String) (member source : String)
    (annotations : List String) : Described HostType := do
  let type ← readType enums member source
  let nullable := markers.saysNullable annotations || !markers.saysNonNull annotations
  return type.withNullable nullable

def readException (member name : String) : Described String :=
  let name := trimmed name
  if name.toList.contains '.' then
    if isQualifiedName name then .ok name
    else .error (.flawed member (.malformedException name))
  else if implicitExceptions.contains name then .ok ("java.lang." ++ name)
  else .error (.flawed member (.unqualifiedException name))

def checkClassName (name : String) : Described Unit :=
  if name.isEmpty then .error (.flawed "<unnamed>" .noClassName)
  else if isQualifiedName name then .ok ()
  else .error (.flawed name .malformedClassName)

/-- Checks the constants of an enumeration behind those already `seen`. -/
def checkConstants (className : String) (seen : List String) : List String → Described Unit
  | [] => .ok ()
  | constant :: constants =>
    let member := memberName className constant
    if !isIdentifier constant.toList then .error (.flawed member .badConstant)
    else if seen.contains constant then .error (.flawed member .repeatedConstant)
    else checkConstants className (constant :: seen) constants

def describeEnum (r : Record) : Described HostClass := do
  checkConstants r.name [] r.constants
  return .enumeration r.name r.constants

def describeFields (markers : Markers) (enums : List String) (className : String) :
    (done : List HostClass.Field) → List Field → Described (List HostClass.Field)
  | done, [] => .ok done
  | done, f :: fs => do
    let member := memberName className f.name
    if done.any (·.name == f.name) then .error (.flawed member .repeatedField)
    else
      let type ← readDeclaredType markers enums member f.type f.annotations
      let field : HostClass.Field :=
        { name := f.name, type, isFinal := f.isFinal, hasGetter := false, hasSetter := false }
      describeFields markers enums className (done ++ [field]) fs

/-- Describes a parameter of a constructor, which may be absent only if an annotation says so. -/
def describeParameter (markers : Markers) (enums : List String) (className : String)
    (index : Nat) (p : Parameter) : Described HostClass.Parameter := do
  let member := constructorParameterName className index p.name
  if p.name.isEmpty then .error (.flawed member .namelessParameter)
  else
    let type ← readType enums member p.type
    return { name := p.name, type := type.withNullable (markers.saysNullable p.annotations) }

def describeConstructors (markers : Markers) (enums : List String) (className : String) :
    (index : Nat) → List Constructor → Described (List HostClass.Constructor)
  | _, [] => .ok []
  | index, c :: cs => do
    let parameters ← c.parameters.mapM (describeParameter markers enums className index)
    let rest ← describeConstructors markers enums className (index + 1) cs
    return { parameters } :: rest

def acceptsGetter (property : String) (type : HostType) (f : HostClass.Field) : Bool :=
  f.name == property && !f.hasGetter && f.type.sameShape type

def acceptsSetter (property : String) (type : HostType) (f : HostClass.Field) : Bool :=
  f.name == property && !f.hasSetter && f.type.sameShape type

def changeFirst (test : HostClass.Field → Bool) (change : HostClass.Field → HostClass.Field) :
    List HostClass.Field → List HostClass.Field
  | [] => []
  | f :: fs => if test f then change f :: fs else f :: changeFirst test change fs

/-- Adds a method without parameters that returns a value. It is a getter if its name says so. -/
def bindGetter (markers : Markers) (enums : List String) (c : HostClass) (m : Method) :
    Described HostClass := do
  let member := methodName c.name m.name
  -- the type is read before the name is looked at, and so a type that cannot be read refuses the
  -- class even if the method is no getter
  let type ← readDeclaredType markers enums member m.returns m.annotations
  match getterProperty? m.name type.isBoolean with
  | none => return c
  | some property =>
    let test := acceptsGetter property type
    let throws ← m.throws.mapM (readException member)
    let getter : HostClass.Method :=
      {
        name := m.name, parameters := [], returns := type, throws,
        field := (c.fields.find? test).map HostClass.Field.name
      }
    return {
      c with
      fields := changeFirst test (fun f => { f with hasGetter := true }) c.fields
      getters := c.getters ++ [getter]
    }

def readReturnType (enums : List String) (member : String) (m : Method) : Described HostType :=
  if m.isVoid then .ok .void else readType enums member m.returns

/-- Adds a method that assigns a property. It is dropped if there is no field for it. -/
def bindSetter (markers : Markers) (enums : List String) (c : HostClass) (m : Method)
    (p : Parameter) (property : String) : Described HostClass := do
  let member := methodName c.name m.name
  let type ← readDeclaredType markers enums member p.type p.annotations
  let test := acceptsSetter property type
  match c.fields.find? test with
  | none => return c
  -- what the method returns and declares is read only if it is for a field
  | some field =>
    let returns ← readReturnType enums member m
    let throws ← m.throws.mapM (readException member)
    let setter : HostClass.Method :=
      { name := m.name, parameters := [type], returns, throws, field := some field.name }
    return {
      c with
      fields := changeFirst test (fun f => { f with hasSetter := true }) c.fields
      setters := c.setters ++ [setter]
    }

/-- Adds a method to a class if it reads or assigns a value. -/
def bindMethod (markers : Markers) (enums : List String) (c : HostClass) (m : Method) :
    Described HostClass :=
  if m.parameters.isEmpty && !m.isVoid then bindGetter markers enums c m
  else
    match m.parameters, setterProperty? m.name with
    | [p], some property => bindSetter markers enums c m p property
    | _, _ => .ok c

/-- Describes the class that a record is about, given the enumerations of the batch. -/
def describe (markers : Markers) (enums : List String) (r : Record) : Described HostClass := do
  checkClassName r.name
  if r.isEnum then describeEnum r
  else
    let fields ←
      describeFields markers enums r.name [] (r.fields.filter fun f => !f.isStatic)
    let constructors ← describeConstructors markers enums r.name 0 r.publicConstructors
    r.publicMethods.foldlM (bindMethod markers enums)
      { HostClass.plain r.name with fields, constructors }

def enumNames (records : List Record) : List String :=
  (records.filter isEnum).map Record.name

/-- The classes that could be described, and the others. -/
structure Extraction where
  classes : List HostClass
  failures : List Failure

def Extraction.cons (name : String) (outcome : Described HostClass) (e : Extraction) :
    Extraction :=
  match outcome with
  | .ok c => { e with classes := c :: e.classes }
  | .error refusal => { e with failures := ⟨name, refusal⟩ :: e.failures }

/-- Describes records behind those with the names `seen`. The first record of a class counts. -/
def describeAll (markers : Markers) (enums : List String) (seen : List String) :
    List Record → Extraction
  | [] => ⟨[], []⟩
  | r :: rs =>
    -- a record of a class that is there already is refused unread
    let outcome :=
      if seen.contains r.name then .error (.flawed r.name .repeatedRecord)
      else describe markers enums r
    (describeAll markers enums (r.name :: seen) rs).cons r.name outcome

/-- Describes the classes of a batch of records. -/
def extract (markers : Markers) (records : List Record) : Extraction :=
  describeAll markers (enumNames records) [] records

end Facade.Record
