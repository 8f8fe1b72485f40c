import Facade.Toml.Number

/-!
This module contains the dates and times of TOML, and the one form that each is handed on in: with
seconds, without zeros at the end of a fraction, and with a `T` between date and time.
-/

namespace Facade.Toml

open Facade.Text

structure Date where
  year : Nat
  month : Nat
  day : Nat
  deriving DecidableEq, Repr

structure Time where
  hour : Nat
  minute : Nat
  second : Nat
  nanosecond : Nat
  deriving DecidableEq, Repr

/-- How far the time of a place is ahead of that of Greenwich. -/
inductive Zone where
  | greenwich
  | ahead (minutes : Int)
  deriving DecidableEq, Repr

/-- A date, a time, or both, possibly with a zone. -/
inductive Moment where
  | date (date : Date)
  | time (time : Time)
  | both (date : Date) (time : Time) (zone : Option Zone)
  deriving DecidableEq, Repr

def daysIn (year month : Nat) : Nat :=
  if month = 2 then
    if year % 4 = 0 && (year % 100 != 0 || year % 400 = 0) then 29 else 28
  else if [4, 6, 9, 11].contains month then 30
  else 31

def readNumber (width : Nat) (text : List Char) : Option (Nat × List Char) :=
  let digits := text.take width
  if digits.length = width && digits.all isDigit then
    (digitsValue? 10 digits).map fun n => (n, text.drop width)
  else none

def readMarked (mark : Char) (text : List Char) : Option (Nat × List Char) :=
  (dropStart? [mark] text).bind (readNumber 2)

/-- Reads a date such as `1979-05-27`. -/
def readDate (text : List Char) : Option (Date × List Char) := do
  let (year, rest) ← readNumber 4 text
  let (month, rest) ← readMarked '-' rest
  let (day, rest) ← readMarked '-' rest
  if 1 ≤ month && month ≤ 12 && 1 ≤ day && day ≤ daysIn year month then
    return (⟨year, month, day⟩, rest)
  else none

def fractionWidth : Nat := 9

def readNanoseconds (text : List Char) : Option (Nat × List Char) :=
  match text with
  | '.' :: rest =>
    let digits := rest.takeWhile isDigit
    if digits.isEmpty then none
    else
      (digitsValue? 10 ((digits.take fractionWidth).rightpad fractionWidth '0')).map fun n =>
        (n, rest.dropWhile isDigit)
  | _ => some (0, text)

/-- Reads a time such as `07:32`, `07:32:00` or `07:32:00.25`. -/
def readTime (text : List Char) : Option (Time × List Char) := do
  let (hour, rest) ← readNumber 2 text
  let (minute, rest) ← readMarked ':' rest
  let (second, nanosecond, rest) ←
    match rest with
    | ':' :: _ => do
      let (second, rest) ← readMarked ':' rest
      let (nanosecond, rest) ← readNanoseconds rest
      some (second, nanosecond, rest)
    | _ => some (0, 0, rest)
  if hour ≤ 23 && minute ≤ 59 && second ≤ 60 then
    return (⟨hour, minute, second, nanosecond⟩, rest)
  else none

/-- The minutes of an offset such as `07:00`. -/
def offset? (text : List Char) : Option Int := do
  let (hours, rest) ← readNumber 2 text
  let (minutes, rest) ← readMarked ':' rest
  if hours ≤ 23 && minutes ≤ 59 && rest.isEmpty then return 60 * hours + minutes else none

/-- A zone such as `Z` or `-07:00`. -/
def zone? (text : List Char) : Option Zone :=
  match text with
  | ['Z'] => some .greenwich
  | ['z'] => some .greenwich
  | '+' :: rest => (offset? rest).map .ahead
  | '-' :: rest => (offset? rest).map fun minutes => .ahead (-minutes)
  | _ => none

namespace Moment

/-- The time behind a date, with its zone. -/
def behind? (day : Date) (text : List Char) : Option Moment := do
  let (clock, rest) ← readTime text
  if rest.isEmpty then return both day clock none
  else return both day clock (← zone? rest)

/-- A date, a time, or both with a `T` or a space between them. -/
def parse? (text : List Char) : Option Moment :=
  match readDate text with
  | some (day, []) => some (date day)
  | some (day, c :: rest) => if c = 'T' || c = 't' || c = ' ' then behind? day rest else none
  | none =>
    match readTime text with
    | some (clock, []) => some (time clock)
    | _ => none

end Moment

def padded (width n : Nat) : String :=
  String.ofList ((toString n).toList.leftpad width '0')

def Date.render (d : Date) : String :=
  padded 4 d.year ++ "-" ++ padded 2 d.month ++ "-" ++ padded 2 d.day

/-- A fraction of a second as it is handed on. There is none of zero. -/
def fractionText (nanosecond : Nat) : String :=
  if nanosecond = 0 then ""
  else
    let digits := (padded fractionWidth nanosecond).toList.reverse.dropWhile (· == '0')
    "." ++ String.ofList digits.reverse

def Time.render (t : Time) : String :=
  padded 2 t.hour ++ ":" ++ padded 2 t.minute ++ ":" ++ padded 2 t.second ++
    fractionText t.nanosecond

def Zone.render : Zone → String
  | greenwich => "Z"
  | ahead minutes =>
    let sign := if minutes < 0 then "-" else "+"
    sign ++ padded 2 (minutes.natAbs / 60) ++ ":" ++ padded 2 (minutes.natAbs % 60)

def Moment.render : Moment → String
  | date day => day.render
  | time clock => clock.render
  | both day clock zone =>
    day.render ++ "T" ++ clock.render ++
      match zone with
      | some zone => zone.render
      | none => ""

end Facade.Toml
