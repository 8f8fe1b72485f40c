import Facade.Scala.Expression
import Facade.Scala.ScalaType

/-!
This module contains the conversions of host values into values of a wrapper's types and back. Both
directions go through collections element by element, and the parameters of the functions that do so
are numbered by their nesting.
-/

namespace Facade.Scala

open Text Host

def loweredName (s : Scalar) : String :=
  String.ofList ((scalarName s).toList.flatMap lower)

namespace Expression

/-- A collection as it is gone through: that of the host by an iterator. -/
def traversal (collection : Expression) : Expression :=
  if ".asScala".toList.isSuffixOf collection.render.toList then collection.select "iterator"
  else collection

/-- The elements of a collection, each converted. Nothing is done if that changes none of them. -/
def convertElements (collection : Expression) (depth : Nat) (convert : Expression → Expression) :
    Expression :=
  let element := s!"e{depth}"
  let body := convert (code element)
  if body = code element then collection
  else collection.traversal.mapElements element body

/-- The entries of a map, each converted. Nothing is done if that changes none of them. -/
def convertEntries (entries : Expression) (depth : Nat)
    (convertKey convertValue : Expression → Expression) : Expression :=
  let key := s!"k{depth}"
  let value := s!"v{depth}"
  let keyBody := convertKey (code key)
  let valueBody := convertValue (code value)
  if keyBody = code key ∧ valueBody = code value then entries
  else entries.traversal.mapEntries key value keyBody valueBody

end Expression

/-- A host value as a value of a type. `depth` is the number of functions around it. -/
def fromHostAt : ScalaType → (depth : Nat) → Expression → Expression
  | .scalar s boxed, _, x =>
    if boxed && s.isPrimitive then x.select (loweredName s ++ "Value") else x
  | .external _, _, x => x
  | .enumeration name _, _, x => .call (name ++ ".fromJava") x
  | .wrapper name _, _, x => .create name x
  | .list element, depth, x =>
    ((x.select "asScala").convertElements depth (fromHostAt element (depth + 1))).select "toList"
  | .set element, depth, x =>
    ((x.select "asScala").convertElements depth (fromHostAt element (depth + 1))).select "toSet"
  | .map key value, depth, x =>
    .call "ListMap.from" <|
      (x.select "asScala").convertEntries depth (fromHostAt key (depth + 1))
        (fromHostAt value (depth + 1))
  | .option value, depth, x =>
    (Expression.call "Option" x).convertElements depth (fromHostAt value (depth + 1))

/-- A value of a type as a host value. `depth` is the number of functions around it. -/
def toHostAt : ScalaType → (depth : Nat) → Expression → Expression
  | .scalar s boxed, _, x =>
    if boxed && s.isPrimitive then .call (scalarName s ++ ".box") x else x
  | .external _, _, x => x
  | .enumeration _ _, _, x => x.select "toJava"
  | .wrapper _ _, _, x => x.select "underlying"
  | .list element, depth, x =>
    (x.convertElements depth (toHostAt element (depth + 1))).select "asJava"
  | .set element, depth, x =>
    (x.convertElements depth (toHostAt element (depth + 1))).select "asJava"
  | .map key value, depth, x =>
    (x.convertEntries depth (toHostAt key (depth + 1)) (toHostAt value (depth + 1))).select "asJava"
  | .option value, depth, x =>
    (x.convertElements depth (toHostAt value (depth + 1))).select "orNull"

/-- A host value as a value of a type. -/
def fromHost (type : ScalaType) (x : Expression) : Expression :=
  fromHostAt type 0 x

/-- A value of a type as a host value. -/
def toHost (type : ScalaType) (x : Expression) : Expression :=
  toHostAt type 0 x

end Facade.Scala
