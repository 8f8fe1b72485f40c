import Facade.Toml.Scalar

/-!
This module contains the quoted strings of TOML: basic strings with escapes, literal strings
without, and both over several lines.
-/

namespace Facade.Toml

def isSpace (c : Char) : Bool :=
  c == ' ' || c == '\t'

def isControl (c : Char) : Bool :=
  (c.toNat < 32 && c != '\t') || c.toNat = 127

def dropNewline? : List Char → Option (List Char)
  | '\n' :: rest => some rest
  | '\r' :: '\n' :: rest => some rest
  | _ => none

def charOf? (n : Nat) : Option Char :=
  if h : n.isValidChar then some (Char.ofNatAux n h) else none

def readHex (width : Nat) (text : List Char) : Option (Char × List Char) := do
  let digits := text.take width
  if digits.length = width then
    return (← charOf? (← digitsValue? 16 digits), text.drop width)
  else none

def readEscape : List Char → Option (Char × List Char)
  | 'b' :: rest => some ('\x08', rest)
  | 't' :: rest => some ('\t', rest)
  | 'n' :: rest => some ('\n', rest)
  | 'f' :: rest => some ('\x0c', rest)
  | 'r' :: rest => some ('\r', rest)
  | 'e' :: rest => some ('\x1b', rest)
  | '"' :: rest => some ('"', rest)
  | '\\' :: rest => some ('\\', rest)
  | 'x' :: rest => readHex 2 rest
  | 'u' :: rest => readHex 4 rest
  | 'U' :: rest => readHex 8 rest
  | _ => none

def readBasic : (fuel : Nat) → List Char → Option (List Char × List Char)
  | 0, _ => none
  | _, [] => none
  | _, '"' :: rest => some ([], rest)
  | fuel + 1, '\\' :: rest => do
    let (c, rest) ← readEscape rest
    let (text, rest) ← readBasic fuel rest
    return (c :: text, rest)
  | fuel + 1, c :: rest =>
    if isControl c then none
    else do
      let (text, rest) ← readBasic fuel rest
      return (c :: text, rest)

def readLiteral : List Char → Option (List Char × List Char)
  | [] => none
  | c :: rest =>
    if c = '\'' then some ([], rest)
    else if isControl c then none
    else do
      let (text, rest) ← readLiteral rest
      return (c :: text, rest)

def dropSpaceAndNewlines : List Char → List Char
  | '\r' :: '\n' :: rest => dropSpaceAndNewlines rest
  | c :: rest => if isSpace c || c = '\n' then dropSpaceAndNewlines rest else c :: rest
  | [] => []

/-- The rest of a text behind a line break that an escape hides, together with the space around it. -/
def dropHiddenBreak? (text : List Char) : Option (List Char) :=
  (dropNewline? (text.dropWhile isSpace)).map dropSpaceAndNewlines

/-- Reads the quotes at the end of a string of several lines: three that close it behind up to two. -/
def readClosing (quote : Char) (text : List Char) : Option (List Char × List Char) :=
  let quotes := (text.takeWhile (· == quote)).length
  if 3 ≤ quotes then
    let kept := min quotes 5 - 3
    some (List.replicate kept quote, text.drop (kept + 3))
  else none

def readBasicLines : (fuel : Nat) → List Char → Option (List Char × List Char)
  | 0, _ => none
  | _, [] => none
  | fuel + 1, '"' :: rest =>
    match readClosing '"' ('"' :: rest) with
    | some closing => some closing
    | none => do
      let (text, rest) ← readBasicLines fuel rest
      return ('"' :: text, rest)
  | fuel + 1, '\\' :: rest =>
    match dropHiddenBreak? rest with
    | some rest => readBasicLines fuel rest
    | none => do
      let (c, rest) ← readEscape rest
      let (text, rest) ← readBasicLines fuel rest
      return (c :: text, rest)
  | fuel + 1, '\r' :: '\n' :: rest => do
    let (text, rest) ← readBasicLines fuel rest
    return ('\r' :: '\n' :: text, rest)
  | fuel + 1, c :: rest =>
    if isControl c && c != '\n' then none
    else do
      let (text, rest) ← readBasicLines fuel rest
      return (c :: text, rest)

def readLiteralLines : (fuel : Nat) → List Char → Option (List Char × List Char)
  | 0, _ => none
  | _, [] => none
  | fuel + 1, '\'' :: rest =>
    match readClosing '\'' ('\'' :: rest) with
    | some closing => some closing
    | none => do
      let (text, rest) ← readLiteralLines fuel rest
      return ('\'' :: text, rest)
  | fuel + 1, '\r' :: '\n' :: rest => do
    let (text, rest) ← readLiteralLines fuel rest
    return ('\r' :: '\n' :: text, rest)
  | fuel + 1, c :: rest =>
    if isControl c && c != '\n' then none
    else do
      let (text, rest) ← readLiteralLines fuel rest
      return (c :: text, rest)

def dropFirstNewline (text : List Char) : List Char :=
  (dropNewline? text).getD text

def readLineString (text : List Char) : Option (String × List Char) :=
  match text with
  | '"' :: rest => (readBasic (text.length + 1) rest).map fun (s, rest) => (String.ofList s, rest)
  | '\'' :: rest => (readLiteral rest).map fun (s, rest) => (String.ofList s, rest)
  | _ => none

def readString (text : List Char) : Option (String × List Char) :=
  match text with
  | '"' :: '"' :: '"' :: rest =>
    (readBasicLines (text.length + 1) (dropFirstNewline rest)).map fun (s, rest) =>
      (String.ofList s, rest)
  | '\'' :: '\'' :: '\'' :: rest =>
    (readLiteralLines (text.length + 1) (dropFirstNewline rest)).map fun (s, rest) =>
      (String.ofList s, rest)
  | _ => readLineString text

end Facade.Toml
