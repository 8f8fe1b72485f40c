/-!
This module contains the cutting of texts: at every separator, at the last separator, and behind a
given beginning. It also contains the length of a text in bytes.
-/

namespace Facade.Text

/-- The pieces between the characters that satisfy `sep`. There is always one more than separators. -/
def pieces (sep : Char → Bool) : List Char → List (List Char)
  | [] => [[]]
  | c :: cs =>
    if sep c then [] :: pieces sep cs
    else
      match pieces sep cs with
      | [] => [[c]]
      | p :: ps => (c :: p) :: ps

/-- The pieces of a string between the characters that satisfy `sep`. -/
def split (sep : Char → Bool) (s : String) : List String :=
  (pieces sep s.toList).map String.ofList

/-- What stands before and behind the last `sep`, if there is one. -/
def cutLast? (sep : Char) : List Char → Option (List Char × List Char)
  | [] => none
  | c :: cs =>
    match cutLast? sep cs with
    | some (before, behind) => some (c :: before, behind)
    | none => if c = sep then some ([], cs) else none

/-- What stands before and behind the first `sep`, if there is one. -/
def cutFirst? (sep : Char) : List Char → Option (List Char × List Char)
  | [] => none
  | c :: cs =>
    if c = sep then some ([], cs)
    else (cutFirst? sep cs).map fun (before, behind) => (c :: before, behind)

/-- What stands behind `start`, if the text begins with it. -/
def dropStart? : (start text : List Char) → Option (List Char)
  | [], text => some text
  | _ :: _, [] => none
  | c :: cs, d :: ds => if c = d then dropStart? cs ds else none

def byteLength : List Char → Nat
  | [] => 0
  | c :: cs => c.utf8Size + byteLength cs

/-- The lines of a text, each with the line feed that ends it. The last one may have none. -/
def linesWithEnds : List Char → List (List Char)
  | [] => []
  | c :: cs =>
    if c = '\n' then [c] :: linesWithEnds cs
    else
      match linesWithEnds cs with
      | [] => [[c]]
      | l :: ls => (c :: l) :: ls

end Facade.Text
