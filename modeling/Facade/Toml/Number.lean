import Facade.Data.Tree
import Facade.Text.Pieces

/-!
This module contains the numbers of TOML: integers in four bases, and numbers with a fraction or an
exponent.
-/

namespace Facade.Toml

open Facade.Data Facade.Text

def isDigit (c : Char) : Bool :=
  '0' ≤ c && c ≤ '9'

def digitValue? (base : Nat) (c : Char) : Option Nat :=
  let n :=
    if isDigit c then c.toNat - 48
    else if 'a' ≤ c && c ≤ 'f' then c.toNat - 87
    else if 'A' ≤ c && c ≤ 'F' then c.toNat - 55
    else base
  if n < base then some n else none

def digitsValue? (base : Nat) (digits : List Char) : Option Nat :=
  digits.foldl (fun n c => do return base * (← n) + (← digitValue? base c)) (some 0)

/-- A row of digits without the underscores in it, each of which must stand between two digits. -/
def joinedDigits? (base : Nat) (text : List Char) : Option (List Char) :=
  let groups := pieces (· == '_') text
  if groups.all fun group => !group.isEmpty && group.all fun c => (digitValue? base c).isSome then
    some groups.flatten
  else none

def naturalNumber? (base : Nat) (text : List Char) : Option Nat := do
  digitsValue? base (← joinedDigits? base text)

def plainNumber? (text : List Char) : Option (List Char) := do
  let digits ← joinedDigits? 10 text
  match digits with
  | '0' :: _ :: _ => none
  | _ => some digits

def cutSign (text : List Char) : Bool × List Char :=
  match text with
  | '+' :: rest => (false, rest)
  | '-' :: rest => (true, rest)
  | _ => (false, text)

/-- An integer. Other bases than ten have no sign. -/
def integer? (text : List Char) : Option Tree :=
  match text with
  | '0' :: 'x' :: rest => (naturalNumber? 16 rest).map fun n => .integer n
  | '0' :: 'o' :: rest => (naturalNumber? 8 rest).map fun n => .integer n
  | '0' :: 'b' :: rest => (naturalNumber? 2 rest).map fun n => .integer n
  | _ => do
    let (negative, rest) := cutSign text
    let n ← digitsValue? 10 (← plainNumber? rest)
    return .integer (if negative then -n else n)

/-- The exponent of a number behind its `e`, which may have leading zeros. -/
def isExponent (text : List Char) : Bool :=
  (joinedDigits? 10 (cutSign text).2).isSome

def isMantissa (text : List Char) (fraction : Bool) : Bool :=
  match cutFirst? '.' text with
  | some (whole, places) => (plainNumber? whole).isSome && (joinedDigits? 10 places).isSome
  | none => !fraction && (plainNumber? text).isSome

/-- A number with a fraction, an exponent or both, an infinity, or no number at all. -/
def decimal? (text : List Char) : Option Tree :=
  let unsigned := (cutSign text).2
  let decimal := some (Tree.decimal (String.ofList text))
  if unsigned = "inf".toList || unsigned = "nan".toList then decimal
  else
    match cutFirst? 'e' (unsigned.map fun c => if c = 'E' then 'e' else c) with
    | some (mantissa, exponent) =>
      if isMantissa mantissa false && isExponent exponent then decimal else none
    | none => if isMantissa unsigned true then decimal else none

end Facade.Toml
