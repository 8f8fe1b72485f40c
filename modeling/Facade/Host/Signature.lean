import Facade.Text.Blank
import Facade.Text.Letter
import Facade.Text.Pieces

/-!
This module contains type signatures such as `java.util.Map<String, ? extends Number>[]`, as host
sources and metadata files spell them, and the reading of them.
-/

namespace Facade.Host

open Text

/-- A type name with the arguments of the type. Array brackets are part of the name. -/
inductive Signature where
  | mk (name : String) (arguments : List Signature)
  deriving Repr

def Signature.name : Signature → String
  | mk name _ => name

def Signature.arguments : Signature → List Signature
  | mk _ arguments => arguments

/-- A reason for which a text is no signature. Some tell the rest of the text that they are about. -/
inductive SignatureError where
  | unexpected (rest : List Char)
  | tooDeep
  | wildcardOutside
  | unclosed
  | lowerBound
  | unbounded
  | noName (rest : List Char)
  | malformedName (name : List Char)
  deriving DecidableEq, Repr

namespace Signature

/-- The number of levels of arguments that a signature may have. -/
def depthLimit : Nat := 64

end Signature

namespace SignatureError

/-- The text of an error of the signature `source`. -/
def message (source : List Char) (error : SignatureError) : String :=
  let text := String.ofList source
  match error with
  | unexpected rest => s!"unexpected `{String.ofList rest}` in type `{text}`"
  | tooDeep => s!"type arguments nested deeper than {Signature.depthLimit} levels in `{text}`"
  | wildcardOutside => s!"wildcard is only allowed as a type argument in `{text}`"
  | unclosed => s!"expected `,` or `>` in type `{text}`"
  | lowerBound => s!"lower-bounded wildcard `? super` is not supported in `{text}`"
  | unbounded => s!"unbounded wildcard `?` is not supported in `{text}`"
  | noName rest =>
    s!"expected a type name at offset {byteLength source - byteLength rest} in `{text}`"
  | malformedName name => s!"malformed type name `{String.ofList name}`"

end SignatureError

namespace Signature

def isNameChar (c : Char) : Bool :=
  isWordChar c || c == '_' || c == '$' || c == '.'

/-- A digit from `0` to `9`. -/
def isPlainDigit (c : Char) : Bool :=
  '0' ≤ c && c ≤ '9'

/-- Whether a segment between dots is one of a type name. It may not start with a plain digit. -/
def isNameSegment (segment : List Char) : Bool :=
  match segment with
  | [] => false
  | c :: _ => !isPlainDigit c

def isName (name : List Char) : Bool :=
  (pieces (· == '.') name).all isNameSegment

def readName (text : List Char) : Except SignatureError (List Char × List Char) :=
  let name := text.takeWhile isNameChar
  if name.isEmpty then .error (.noName text)
  else if !isName name then .error (.malformedName name)
  else .ok (name, text.dropWhile isNameChar)

/-- Reads array brackets with the white space around them. They are counted. -/
def readBrackets : List Char → Nat × List Char
  | '[' :: ']' :: rest =>
    let (count, rest) := readBrackets rest
    (count + 1, rest)
  | c :: rest => if isBlank c then readBrackets rest else (0, c :: rest)
  | [] => (0, [])

def afterKeyword? (keyword : String) (text : List Char) : Option (List Char) :=
  match dropStart? keyword.toList (trimStart text) with
  | some (c :: rest) => if isBlank c then some (c :: rest) else none
  | _ => none

/-- Reads arguments up to the closing bracket. `fuel` bounds their number. -/
def readArguments (readArgument : List Char → Except SignatureError (Signature × List Char)) :
    (fuel : Nat) → List Char → Except SignatureError (List Signature × List Char)
  | 0, _ => .error .unclosed
  | fuel + 1, text => do
    let (argument, rest) ← readArgument text
    match trimStart rest with
    | ',' :: rest => do
      let (arguments, rest) ← readArguments readArgument fuel rest
      return (argument :: arguments, rest)
    | '>' :: rest => return ([argument], rest)
    | _ => .error .unclosed

def readType (readArgument : List Char → Except SignatureError (Signature × List Char))
    (text : List Char) : Except SignatureError (Signature × List Char) :=
  match trimStart text with
  | '?' :: _ => .error .wildcardOutside
  | text => do
    let (name, rest) ← readName text
    let (arguments, rest) ←
      match trimStart rest with
      | '<' :: rest => readArguments readArgument (rest.length + 1) rest
      | rest => .ok ([], rest)
    let (brackets, rest) := readBrackets rest
    -- brackets stand behind the arguments, but belong to the name
    let suffix := (List.replicate brackets ['[', ']']).flatten
    return (mk (String.ofList (name ++ suffix)) arguments, rest)

def readArgument : (room : Nat) → List Char → Except SignatureError (Signature × List Char)
  -- an argument too deep is refused unread
  | 0, _ => .error .tooDeep
  | room + 1, text =>
    match trimStart text with
    | '?' :: rest =>
      match afterKeyword? "extends" rest with
      | some rest => readType (readArgument room) rest
      | none =>
        match afterKeyword? "super" rest with
        | some _ => .error .lowerBound
        | none => .error .unbounded
    | text => readType (readArgument room) text

/-- Reads a signature that takes up a whole text. An upper bound stands for its wildcard. -/
def parse (source : List Char) : Except SignatureError Signature := do
  let (signature, rest) ← readType (readArgument depthLimit) source
  match trimStart rest with
  | [] => return signature
  | rest => .error (.unexpected rest)

end Signature

end Facade.Host
