/-!
This module contains the Scala expressions that conversions are made of, and the text that each is
written as.
-/

namespace Facade.Scala

/-- An expression that turns one value into another. -/
inductive Expression where
  /-- Code from elsewhere, or a parameter of a function. -/
  | code (text : String)
  /-- A member of a value, such as `x.asScala`. -/
  | select (value : Expression) (member : String)
  /-- A function of a value, such as `Option(x)`. -/
  | call (function : String) (value : Expression)
  /-- An object that is made from a value. -/
  | create (className : String) (value : Expression)
  /-- The elements of a collection, each turned into `body`, in which it is called `element`. -/
  | mapElements (collection : Expression) (element : String) (body : Expression)
  /-- The entries of a map, with a key and a value that are turned into `keyBody` and `valueBody`. -/
  | mapEntries (entries : Expression) (key value : String) (keyBody valueBody : Expression)
  deriving DecidableEq, Repr

namespace Expression

/-- An expression as it is written. -/
def render : Expression → String
  | code text => text
  | select value member => value.render ++ "." ++ member
  | call function value => function ++ "(" ++ value.render ++ ")"
  | create className value => "new " ++ className ++ "(" ++ value.render ++ ")"
  | mapElements collection element body =>
    collection.render ++ ".map(" ++ element ++ " => " ++ body.render ++ ")"
  | mapEntries entries key value keyBody valueBody =>
    entries.render ++ ".map \x7b case (" ++ key ++ ", " ++ value ++ ") => (" ++ keyBody.render ++
      ", " ++ valueBody.render ++ ") \x7d"

end Expression

end Facade.Scala
