import Facade.Text.Pieces

/-!
This module contains the reading of command lines: switches with and without values, in their long
and short spellings, and what stands between them.
-/

namespace Facade.Command

open Text

/-- Something that a user can put on a command line to change what is done. -/
structure Switch where
  /-- The long spelling without its dashes. -/
  long : String
  /-- The letter of the short spelling. -/
  short : Option Char := none
  /-- What the value of the switch has to satisfy, if it has one. -/
  value : Option (String → Bool) := none
  /-- Whether the switch may be given more than once. -/
  repeats : Bool := false

inductive UsageError where
  | noCommand
  | unexpected (argument : String)
  | missingValue (switch : String)
  | badValue (switch value : String)
  | unwantedValue (switch : String)
  | repeated (switch : String)
  deriving DecidableEq, Repr

def UsageError.message : UsageError → String
  | noCommand => "a subcommand is required but was not provided"
  | unexpected argument => s!"unexpected argument '{argument}' found"
  | missingValue switch => s!"a value is required for '{switch}' but none was supplied"
  | badValue switch value => s!"invalid value '{value}' for '{switch}'"
  | unwantedValue switch => s!"unexpected value for '{switch}' found; no more were expected"
  | repeated switch => s!"the argument '{switch}' cannot be used multiple times"

inductive Argument where
  | switch (long : String)
  | option (long value : String)
  | operand (text : String)
  deriving DecidableEq, Repr

abbrev Given := List String

def Switch.ofLong? (switches : List Switch) (long : List Char) : Option Switch :=
  switches.find? fun s => s.long.toList == long

def Switch.ofShort? (switches : List Switch) (short : Char) : Option Switch :=
  switches.find? fun s => s.short == some short

def Switch.isSpent (s : Switch) (given : Given) : Bool :=
  !s.repeats && given.contains s.long

def Switch.alone (s : Switch) (given : Given) : Except UsageError Argument :=
  if s.isSpent given then .error (.repeated s.long) else .ok (.switch s.long)

def Switch.withValue (s : Switch) (test : String → Bool) (value : List Char) (given : Given) :
    Except UsageError Argument :=
  let value := String.ofList value
  if !test value then .error (.badValue s.long value)
  else if s.isSpent given then .error (.repeated s.long)
  else .ok (.option s.long value)

abbrev Waiting := Option (Switch × (String → Bool))

/-- The switches that stand in a word together, each by its letter, up to one that `ends` them. -/
def readLetters (switches : List Switch) (ends : Argument → Bool) (given : Given) : List Char →
    Except UsageError (List Argument × Waiting)
  | [] => .ok ([], none)
  | c :: cs =>
    match Switch.ofShort? switches c with
    | none => .error (.unexpected (String.ofList ['-', c]))
    | some s =>
      match s.value with
      | none => do
        let argument ← s.alone given
        if ends argument then return ([argument], none)
        else
          let (arguments, waiting) ← readLetters switches ends (s.long :: given) cs
          return (argument :: arguments, waiting)
      | some test =>
        match cs with
        | [] => .ok ([], some (s, test))
        | '=' :: value => do return ([← s.withValue test value given], none)
        | value => do return ([← s.withValue test value given], none)

def readLong (switches : List Switch) (given : Given) (word : List Char) :
    Except UsageError (List Argument × Waiting) :=
  let (long, value) :=
    match cutFirst? '=' word with
    | some (long, value) => (long, some value)
    | none => (word, none)
  match Switch.ofLong? switches long with
  | none => .error (.unexpected ("--" ++ String.ofList word))
  | some s =>
    match s.value, value with
    | none, none => do return ([← s.alone given], none)
    | none, some _ => .error (.unwantedValue s.long)
    | some test, none => .ok ([], some (s, test))
    | some test, some value => do return ([← s.withValue test value given], none)

def readWord (switches : List Switch) (ends : Argument → Bool) (given : Given) (word : String) :
    Except UsageError (List Argument × Waiting) :=
  match word.toList with
  | '-' :: '-' :: rest => readLong switches given rest
  | '-' :: c :: cs => readLetters switches ends given (c :: cs)
  | _ => .ok ([.operand word], none)

def isDashed (word : String) : Bool :=
  match word.toList with
  | '-' :: _ :: _ => true
  | _ => false

def givenIn (arguments : List Argument) : Given :=
  arguments.filterMap fun argument =>
    match argument with
    | .switch long => some long
    | .option long _ => some long
    | .operand _ => none

/--
The arguments that words stand for. Behind two dashes, every word is an operand. Words behind an
argument that `ends` the command line do not count.
-/
def readArguments (switches : List Switch) (ends : Argument → Bool) (given : Given) :
    List String → Except UsageError (List Argument)
  | [] => .ok []
  | "--" :: words => .ok (words.map .operand)
  | word :: words => do
    let (arguments, waiting) ← readWord switches ends given word
    let given := givenIn arguments ++ given
    if arguments.any ends then return arguments
    else
      match waiting, words with
      | none, words => return arguments ++ (← readArguments switches ends given words)
      | some (s, _), [] => .error (.missingValue s.long)
      | some (s, test), value :: words =>
        if isDashed value then .error (.missingValue s.long)
        else
          let argument ← s.withValue test value.toList given
          return arguments ++ argument :: (← readArguments switches ends (s.long :: given) words)

end Facade.Command
