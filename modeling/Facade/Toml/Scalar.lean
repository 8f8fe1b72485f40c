import Facade.Data.Tree
import Facade.Toml.Moment

/-!
This module contains the TOML values that are written without quotes or brackets: truth values,
numbers, dates and times.
-/

namespace Facade.Toml

open Facade.Data

def momentKey : String := "$__toml_private_datetime"

def Moment.tree (m : Moment) : Tree :=
  .ofEntries [(momentKey, .text m.render)]

def isDate (text : List Char) : Bool :=
  match readDate text with
  | some (_, []) => true
  | _ => false

def isScalarChar (c : Char) : Bool :=
  isDigit c || ('a' ≤ c && c ≤ 'z') || ('A' ≤ c && c ≤ 'Z') || "_+-.:".toList.contains c

def scalar? (text : List Char) : Option Tree :=
  if text = "true".toList then some (.flag true)
  else if text = "false".toList then some (.flag false)
  else
    match integer? text, decimal? text with
    | some t, _ => some t
    | none, some t => some t
    | none, none => (Moment.parse? text).map Moment.tree

/-- Cuts a value without quotes or brackets off a text. A time may stand behind a date and a space. -/
def cutScalar (text : List Char) : List Char × List Char :=
  let word := text.takeWhile isScalarChar
  let rest := text.dropWhile isScalarChar
  match rest with
  | ' ' :: c :: behind =>
    if isDate word && isDigit c then
      (word ++ ' ' :: (c :: behind).takeWhile isScalarChar, (c :: behind).dropWhile isScalarChar)
    else (word, rest)
  | _ => (word, rest)

end Facade.Toml
