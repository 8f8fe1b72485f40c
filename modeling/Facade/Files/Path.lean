import Facade.Text.Pieces

/-!
This module contains paths as users write them: parts with slashes between them. Doubled slashes and
parts that are a single dot make no difference, but for a dot at the start.
-/

namespace Facade.Files

open Text

/-- A path, as it was written. -/
abbrev Path := String

namespace Path

/-- Whether a path starts at the root. -/
def isAbsolute (path : Path) : Bool :=
  path.toList.head? == some '/'

/-- A path below a directory. An absolute path stays what it is. -/
def join (directory path : Path) : Path :=
  if isAbsolute path || directory.isEmpty then path
  else if directory.toList.getLast? == some '/' then directory ++ path
  else directory ++ "/" ++ path

def sizeLimit : Nat := 4096

def nameLimit : Nat := 255

/-- Whether a path can lead anywhere. It cannot if it is too long or holds a NUL. -/
def isUsable (path : Path) : Bool :=
  byteLength path.toList < sizeLimit && !path.toList.contains '\x00'

def isName (part : List Char) : Bool :=
  byteLength part ≤ nameLimit

def isIdle (part : List Char) : Bool :=
  part.isEmpty || part == ['.']

def backwards (path : Path) : List (List Char) :=
  ((pieces (· == '/') path.toList).filter (!isIdle ·)).reverse

/-- The last part of a path, unless that leads upwards. -/
def fileName? (path : Path) : Option String :=
  match path.backwards with
  | [] => none
  | part :: _ => if part == ['.', '.'] then none else some (String.ofList part)

/-- What stands behind the last dot of the last part of a path, if something stands before it. -/
def extension? (path : Path) : Option String :=
  match path.fileName?.bind fun name => cutLast? '.' name.toList with
  | some (_ :: _, extension) => some (String.ofList extension)
  | _ => none

def isHere (path : Path) : Bool :=
  path.toList.head? == some '.' && path.backwards.isEmpty

/-- The start of a path that is no part of its own: a slash, or a dot before one. -/
def head (text : List Char) : List Char × List Char :=
  match text with
  | '/' :: rest => (['/'], rest)
  | ['.'] => (['.'], [])
  | '.' :: '/' :: rest => (['.'], '/' :: rest)
  | _ => ([], text)

def dropIdle (parts : List (List Char)) : List (List Char) :=
  parts.dropWhile isIdle

/-- The directory that a path is in: the path without its last part. The root is in none. -/
def parent? (path : Path) : Option Path :=
  let (start, body) := head path.toList
  match dropIdle (pieces (· == '/') body).reverse with
  | _ :: parts =>
    let rest := ['/'].intercalate (dropIdle parts).reverse
    some (String.ofList (start ++ rest))
  | [] => if start = ['.'] then some "" else none

end Path

end Facade.Files
