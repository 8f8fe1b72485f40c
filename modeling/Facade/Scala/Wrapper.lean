import Facade.Files.Path
import Facade.Scala.Convert
import Facade.Scala.Outline
import Facade.Scala.SourceFile

/-!
This module contains the sources of wrappers: a final class around an object of the host for a
class, and a sealed class with an object for each constant for an enumeration.
-/

namespace Facade.Scala

open Text Host Source Files

structure GeneratedFile where
  path : Path
  content : String
  deriving DecidableEq, Repr

/-- A name inside of a string literal: without backquotes, and with every `$` doubled. -/
def literalName (name : String) : String :=
  let chars := name.toList.dropWhile (· == '`')
  let bare := (chars.reverse.dropWhile (· == '`')).reverse
  String.ofList (bare.flatMap fun c => if c = '$' then ['$', '$'] else [c])

namespace ClassWrapper

open Outline

def imports (constructors : List Constructor) (getters : List Getter) (setters : List Setter) :
    ImportTable :=
  let given := constructors.flatMap (·.parameters.map (·.type.target)) ++
    setters.map (·.type.target)
  let read := getters.map (·.type.target)
  let collections := (given ++ read).any ScalaType.holdsCollection
  -- an ordered map is made only of what is read; what is given is one already
  let maps := read.any ScalaType.holdsMap
  let table : ImportTable := []
  let table := if collections then table.addAll "scala.jdk.CollectionConverters" else table
  if maps then table.add "scala.collection.immutable" "ListMap" else table

def constructorDef (host : String) (c : Constructor) : Def :=
  let params := c.parameters.map fun p => { name := p.name, type := p.type.target.render }
  let arguments := c.parameters.map fun p => (toHost p.type.target (.code p.name)).render
  (Def.constructor params).withExpression
    ("this(new " ++ host ++ "(" ++ ", ".intercalate arguments ++ "))")

/-- A method with the type and body of a value. Declared exceptions turn up in its result instead. -/
def fallible (d : Def) (type value : String) (exceptions : List String) : Def :=
  match exceptions with
  | [] => { d.withExpression value with returns := some type }
  | [single] =>
    let error := exceptionReference single
    {
      d with
      returns := some ("Either[" ++ error ++ ", " ++ type ++ "]")
      body := tryFragments value [error]
    }
  -- several exceptions have no closer class in common that can be relied on
  | several =>
    {
      d with
      returns := some ("Either[Throwable, " ++ type ++ "]")
      body := tryFragments value (several.map exceptionReference)
    }

def getterDef (g : Getter) : Def :=
  let call := "underlying." ++ escapePath g.hostMethod ++ "()"
  let doc := if g.field.isNone then ["Computed by `" ++ g.hostMethod ++ "()`."] else []
  let value := fromHost g.type.target (.code call)
  fallible { name := g.name, doc } g.type.target.render value.render g.throws

/-- The parameter of a member that assigns a field. -/
def assigned : String := "value"

def setterDef (s : Setter) : Def :=
  let value := toHost s.type.target (.code assigned)
  let call := "underlying." ++ escapePath s.hostMethod ++ "(" ++ value.render ++ ")"
  let params := some [{ name := assigned, type := s.type.target.render }]
  fallible { name := s.name, params } "Unit" call s.throws

/-- The members that are compared and shown: those that read a value and declare no exception. -/
def compared (getters : List Getter) : List String :=
  (getters.filter (·.throws.isEmpty)).map Getter.name

def conjunctionTail : List String → List String
  | [] => []
  | [last] => ["  " ++ last]
  | next :: more => ("  " ++ next ++ " &&") :: conjunctionTail more

def conjunction : List String → List String
  | [] => []
  | [single] => [single]
  | first :: more => (first ++ " &&") :: conjunctionTail more

def equalsDef (name : String) (compared : List String) : Def :=
  let comparisons :=
    if compared.isEmpty then ["this.underlying == that.underlying"]
    else compared.map fun member => "this." ++ member ++ " == that." ++ member
  {
    name := "equals"
    isOverride := true
    params := some [{ name := "other", type := "Any" }]
    returns := some "Boolean"
    body := [matchFragment "other" [⟨"that: " ++ name, conjunction comparisons⟩, ⟨"_", ["false"]⟩]]
  }

def hashCodeDef (compared : List String) : Def :=
  let value :=
    if compared.isEmpty then "underlying.hashCode()"
    else "Seq[Any](" ++ ", ".intercalate compared ++ ").##"
  let d : Def :=
    { name := "hashCode", isOverride := true, params := some [], returns := some "Int" }
  d.withExpression value

def toStringDef (name : String) (compared : List String) : Def :=
  let shown :=
    if compared.isEmpty then "$\x7bunderlying\x7d"
    else ", ".intercalate (compared.map fun member =>
      literalName member ++ "=$\x7b" ++ member ++ "\x7d")
  let d : Def := { name := "toString", isOverride := true, returns := some "String" }
  d.withExpression ("s\"" ++ literalName name ++ "(" ++ shown ++ ")\"")

def sourceFile (o : Outline) (constructors : List Constructor) (getters : List Getter)
    (setters : List Setter) : SourceFile :=
  let host := hostReference o.className
  let compared := compared getters
  let wrapper : ClassDef :=
    {
      name := o.name
      modifiers := ["final"]
      params := [{ name := "underlying", type := host, isVal := true }]
      members :=
        constructors.map (fun c => (constructorDef host c).fragments) ++
          getters.map (fun g => (getterDef g).fragments) ++
          setters.map (fun s => (setterDef s).fragments) ++
          [
            (equalsDef o.name compared).fragments,
            (hashCodeDef compared).fragments,
            (toStringDef o.name compared).fragments
          ]
    }
  {
    package := o.package
    origin := some o.className
    imports := imports constructors getters setters
    body := [wrapper.fragments]
  }

end ClassWrapper

namespace EnumWrapper

open Outline

def hostConstant (host : String) (c : Constant) : String :=
  host ++ "." ++ escapePath c.host

def constantDef (name host : String) (c : Constant) : ObjectDef :=
  { name := c.name, isCase := true, parent := some (name ++ "(" ++ hostConstant host c ++ ")") }

def valuesFragment (name : String) (constants : List Constant) : Fragment :=
  .line ("val values: List[" ++ name ++ "] = List(" ++
    ", ".intercalate (constants.map Constant.name) ++ ")")

def fromHostDef (name host : String) (constants : List Constant) : Def :=
  let d : Def :=
    { name := "fromJava", params := some [{ name := "value", type := host }], returns := some name }
  -- a match without cases is no expression
  if constants.isEmpty then d.withExpression "throw new MatchError(value)"
  else
    { d with
      body := [matchFragment "value" (constants.map fun c => ⟨hostConstant host c, [c.name]⟩)] }

def sourceFile (o : Outline) (constants : List Constant) : SourceFile :=
  let host := hostReference o.className
  let wrapper : ClassDef :=
    {
      name := o.name
      modifiers := ["sealed abstract"]
      params := [{ name := "toJava", type := host, isVal := true }]
    }
  let companion : ObjectDef :=
    {
      name := o.name
      members := [
        constants.flatMap fun c => (constantDef o.name host c).fragments,
        [valuesFragment o.name constants],
        (fromHostDef o.name host constants).fragments
      ]
    }
  {
    package := o.package
    origin := some o.className
    body := [wrapper.fragments, companion.fragments]
  }

end EnumWrapper

namespace Outline

def path (o : Outline) : Path :=
  let directory := if o.package.isEmpty then "" else directoryOf o.package
  Path.join directory (o.fileStem ++ ".scala")

def sourceFile (o : Outline) : SourceFile :=
  match o.body with
  | .enumeration constants => EnumWrapper.sourceFile o constants
  | .members constructors getters setters =>
    ClassWrapper.sourceFile o constructors getters setters

def file (o : Outline) : GeneratedFile :=
  ⟨o.path, o.sourceFile.render⟩

end Outline

def generateFile (catalog : Catalog) (host : HostClass) : Except Stop GeneratedFile := do
  return (← Outline.ofClass catalog host).file

end Facade.Scala
