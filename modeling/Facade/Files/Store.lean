import Facade.Files.Access

/-!
This module contains stores: the files and directories of a machine as a value, with the directory
that relative paths start in.
-/

namespace Facade.Files

open Text

/-- A place in a store: the names that lead to it from the root. -/
abbrev Location := List String

inductive Node where
  | directory
  | file (content : String)
  deriving DecidableEq, Repr

/-- Files and directories. The root is always a directory. -/
structure Store where
  nodes : List (Location × Node)
  /-- The directory that relative paths start in. -/
  here : Location
  deriving Repr

namespace Store

/-- The directories on the way to a place, which is the last of them. -/
def way (location : Location) : List Location :=
  (List.range location.length).map fun n => location.take (n + 1)

/-- A store without files in which relative paths start in an empty directory at a place. -/
def within (here : Location) : Store :=
  ⟨(way here).map fun location => (location, .directory), here⟩

def node? (store : Store) (location : Location) : Option Node :=
  if location.isEmpty then some .directory else store.nodes.lookup location

def put (location : Location) (node : Node) (store : Store) : Store :=
  { store with nodes := (location, node) :: store.nodes.filter (·.1 != location) }

/-- The place that the parts of a path lead to from a directory. All but the last must be one, too. -/
def walk (store : Store) (location : Location) : List (List Char) → Option Location
  | [] => some location
  | part :: parts =>
    -- even a part that changes nothing has to stand in a directory
    if store.node? location ≠ some .directory then none
    else if Path.isIdle part then store.walk location parts
    else if part = ['.', '.'] then store.walk location.dropLast parts
    else if Path.isName part then store.walk (location ++ [String.ofList part]) parts
    else none

def start (store : Store) (path : Path) : Location :=
  if path.isAbsolute then [] else store.here

def locate? (store : Store) (path : Path) : Option Location :=
  if path.isEmpty || !path.isUsable then none
  else store.walk (store.start path) (pieces (· == '/') path.toList)

def find? (store : Store) (path : Path) : Option Node :=
  (store.locate? path).bind store.node?

def readText? (store : Store) (path : Path) : Option String :=
  match store.find? path with
  | some (.file content) => some content
  | _ => none

def nameIn? (directory location : Location) : Option String :=
  if location.dropLast = directory then location.getLast? else none

def entries (store : Store) (path : Path) : List String :=
  match store.locate? path with
  | some directory => store.nodes.filterMap fun (location, _) => nameIn? directory location
  | none => []

/-- Makes the directories that parts of a path lead to from a directory, up to a file in the way or
a part that cannot be a name. -/
def makeWay (location : Location) : List (List Char) → Store → Bool × Store
  | [], store => (true, store)
  | part :: parts, store =>
    if Path.isIdle part then makeWay location parts store
    else if part = ['.', '.'] then makeWay location.dropLast parts store
    else if !Path.isName part then (false, store)
    else
      let next := location ++ [String.ofList part]
      match store.node? next with
      | some .directory => makeWay next parts store
      | some (.file _) => (false, store)
      | none => makeWay next parts (store.put next .directory)

def makeDirectories (path : Path) (store : Store) : Bool × Store :=
  if path.isUsable then makeWay (store.start path) (pieces (· == '/') path.toList) store
  else (false, store)

def writeText (path : Path) (content : String) (store : Store) : Bool × Store :=
  match store.locate? path with
  | none => (false, store)
  | some location =>
    if store.node? location = some .directory then (false, store)
    else (true, store.put location (.file content))

/-- The path from a directory to a place in it. -/
def pathFrom? : (directory location : Location) → Option Path
  | [], location => some ("/".intercalate location)
  | _ :: _, [] => none
  | name :: directory, name' :: location =>
    if name = name' then pathFrom? directory location else none

/-- The paths of all files that are somewhere in the directory that relative paths start in. -/
def files (store : Store) : List Path :=
  store.nodes.filterMap fun (location, node) =>
    match node with
    | .directory => none
    | .file _ => pathFrom? store.here location

end Store

instance : Access (StateM Store) where
  readText? path := return (← get).readText? path
  isFile path := return ((← get).readText? path).isSome
  isDirectory path := return (← get).find? path == some .directory
  entries path := return (← get).entries path
  makeDirectories path := modifyGet (Store.makeDirectories path)
  writeText path content := modifyGet (Store.writeText path content)

end Facade.Files
