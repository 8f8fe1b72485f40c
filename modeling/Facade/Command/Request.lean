import Facade.Command.Arguments
import Facade.Files.Path

/-!
This module contains requests: what a command line asks for.
-/

namespace Facade.Command

open Files

inductive Topic where
  | all
  | init
  | generate
  | check
  | help
  deriving DecidableEq, Repr

inductive Request where
  /-- A starting settings file for a directory. No inputs stand for those that are usual. -/
  | init (directory : Path) (inputs : List String) (force : Bool)
  | generate (settings : Path) (output : Option Path) (dryRun visualize : Bool)
      (jobs : Option Nat) (allowPartial : Bool)
  | check (settings : Path)
  | help (topic : Topic)
  | version
  deriving DecidableEq, Repr

namespace Request

def isPath (value : String) : Bool :=
  !value.isEmpty

def number? (value : String) : Option Nat :=
  let digits :=
    match value.toList with
    | '+' :: digits => digits
    | digits => digits
  if digits.isEmpty || !digits.all Char.isDigit then none
  else
    let n := digits.foldl (fun n c => 10 * n + (c.toNat - '0'.toNat)) 0
    if n < Nat.pow 2 64 then some n else none

def common : List Switch :=
  [
    { long := "verbose", short := some 'v', repeats := true },
    { long := "help", short := some 'h' }
  ]

def leading : List Switch :=
  common ++ [{ long := "version", short := some 'V' }]

def settingsSwitch : Switch :=
  { long := "config", short := some 'c', value := some isPath }

/-- The switches of `init`. -/
def initSwitches : List Switch :=
  common ++ [
    { long := "input", short := some 'i', value := some fun _ => true, repeats := true },
    { long := "force" }
  ]

/-- The switches of `generate`. -/
def generateSwitches : List Switch :=
  common ++ [
    settingsSwitch,
    { long := "output", short := some 'o', value := some isPath },
    { long := "dry-run" },
    { long := "visualize" },
    { long := "jobs", short := some 'j', value := some fun value => (number? value).isSome },
    { long := "allow-partial" }
  ]

/-- The switches of `check`. -/
def checkSwitches : List Switch :=
  common ++ [settingsSwitch]

def operands (arguments : List Argument) : List String :=
  arguments.filterMap fun argument =>
    match argument with
    | .operand text => some text
    | _ => none

def valuesOf (long : String) (arguments : List Argument) : List String :=
  arguments.filterMap fun argument =>
    match argument with
    | .option name value => if name = long then some value else none
    | _ => none

def has (long : String) (arguments : List Argument) : Bool :=
  arguments.contains (.switch long)

def surplus? (count : Nat) (arguments : List Argument) : Option String :=
  (operands arguments)[count]?

/-- Whether an argument asks for help, or is an operand that no use can be made of. -/
def endsCommand (takesOperand : Bool) : Argument → Bool
  | .switch long => long == "help"
  | .option _ _ => false
  | .operand text => !takesOperand || text.isEmpty

def ofCommand (topic : Topic) (switches : List Switch) (count : Nat)
    (request : List Argument → Request) (words : List String) : Except UsageError Request := do
  let arguments ← readArguments switches (endsCommand (count != 0)) [] words
  match surplus? count arguments with
  | some operand => .error (.unexpected operand)
  | none =>
    if (operands arguments).contains "" then .error (.badValue "DIR" "")
    else if has "help" arguments then return .help topic
    else return request arguments

/-- The request of `init` with its arguments. -/
def ofInit (arguments : List Argument) : Request :=
  .init ((operands arguments).head?.getD ".") (valuesOf "input" arguments) (has "force" arguments)

def settingsPath (arguments : List Argument) : Path :=
  (valuesOf "config" arguments).head?.getD "wrapgen.toml"

/-- The request of `generate` with its arguments. -/
def ofGenerate (arguments : List Argument) : Request :=
  .generate (settingsPath arguments) (valuesOf "output" arguments).head?
    (has "dry-run" arguments) (has "visualize" arguments)
    ((valuesOf "jobs" arguments).head?.bind number?) (has "allow-partial" arguments)

/-- The request of `check` with its arguments. -/
def ofCheck (arguments : List Argument) : Request :=
  .check (settingsPath arguments)

/-- The request of `help` with the words behind it. -/
def ofHelp : List String → Except UsageError Request
  | [] => .ok (.help .all)
  | ["init"] => .ok (.help .init)
  | ["generate"] => .ok (.help .generate)
  | ["check"] => .ok (.help .check)
  | ["help"] => .ok (.help .help)
  | word :: _ => .error (.unexpected word)

def endsLeading : Argument → Bool
  | .switch long => long == "help" || long == "version"
  | _ => true

def ofLeading (word : String) : Except UsageError (Option Request) :=
  if word = "--" then .error .noCommand
  else do
    let (arguments, _) ← readWord leading endsLeading [] word
    match arguments.find? endsLeading with
    | some (.switch "help") => return some (.help .all)
    | some (.switch "version") => return some .version
    | some (.operand text) => .error (.unexpected text)
    | _ => return none

def parse : List String → Except UsageError Request
  | [] => .error .noCommand
  | "init" :: words => ofCommand .init initSwitches 1 ofInit words
  | "generate" :: words => ofCommand .generate generateSwitches 0 ofGenerate words
  | "check" :: words => ofCommand .check checkSwitches 0 ofCheck words
  | "help" :: words => ofHelp words
  | word :: words => do
    match ← ofLeading word with
    | some request => return request
    | none => parse words

end Request

end Facade.Command
