import Facade.Host.Name

/-!
This module contains the names of methods that read or assign a property.
-/

namespace Facade.Record

open Text Host

/-- The property of a method name without its first word. Nothing but a new word may follow that. -/
def propertyOf? (rest : List Char) : Option String :=
  match rest with
  | [] => none
  | c :: _ =>
    if isCapital c || c == '_' || c == '$' then some (String.ofList (decapitalize rest)) else none

/-- The rest of a method name behind the word of a getter. Only truth values are read with `is`. -/
def getterRest? (method : String) (isBoolean : Bool) : Option (List Char) :=
  match dropStart? "get".toList method.toList with
  | some rest => some rest
  -- a name such as `issue` is caught behind this, as a new word has to follow
  | none => if isBoolean then dropStart? "is".toList method.toList else none

/-- The property that a method reads: `getFirstName` reads `firstName`, and `getClass` none. -/
def getterProperty? (method : String) (isBoolean : Bool) : Option String :=
  if method = "getClass" then none
  else (getterRest? method isBoolean).bind propertyOf?

/-- The property that a method assigns: `setFirstName` assigns `firstName`. -/
def setterProperty? (method : String) : Option String :=
  (dropStart? "set".toList method.toList).bind propertyOf?

end Facade.Record
