/-!
This module contains the decimal text of a binary floating point number: the fewest digits that
read back as the same number, and of these the nearest.
-/

namespace Facade.Json

/-- A finite positive number `mantissa * 2 ^ exponent`, and whether its lower neighbour is nearer. -/
structure Binary where
  mantissa : Nat
  exponent : Int
  /-- The mantissa is the least one for its exponent, so that the numbers below are denser. -/
  edge : Bool

namespace Binary

def ofBits (bits : Nat) : Binary :=
  let fraction := bits % Nat.pow 2 52
  let scale := bits / Nat.pow 2 52 % Nat.pow 2 11
  if scale = 0 then ⟨fraction, -1074, false⟩
  else ⟨fraction + Nat.pow 2 52, (scale : Int) - 1075, fraction == 0 && scale != 1⟩

/-- The number times `4 * 10 ^ (-power)`, as a fraction. -/
def scaled (b : Binary) (power : Int) : Nat × Nat :=
  let top := 4 * b.mantissa * Nat.pow 2 b.exponent.toNat * Nat.pow 10 (-power).toNat
  let bottom := Nat.pow 2 (-b.exponent).toNat * Nat.pow 10 power.toNat
  (top, bottom)

/-- Whether `digits * 10 ^ power` is nearer to the number than to its neighbours. -/
def reads (b : Binary) (digits : Nat) (power : Int) : Bool :=
  let (top, bottom) := b.scaled power
  let unit := Nat.pow 2 b.exponent.toNat * Nat.pow 10 (-power).toNat
  let low := top - (if b.edge then unit else 2 * unit)
  let high := top + 2 * unit
  let point := 4 * digits * bottom
  if b.mantissa % 2 = 0 then low ≤ point && point ≤ high else low < point && point < high

/--
The multiple of `10 ^ power` nearest to the number that reads back as it, if there is one. Of two
that are equally near, it is the one with the even last digit.
-/
def onGrid? (b : Binary) (power : Int) : Option Nat :=
  let (top, bottom) := b.scaled power
  let below := top / (4 * bottom)
  let rest := top - 4 * bottom * below
  let down := 2 * rest < 4 * bottom || (2 * rest = 4 * bottom && below % 2 = 0)
  let nearer := if down then [below, below + 1] else [below + 1, below]
  nearer.find? fun digits => digits != 0 && b.reads digits power

def search (b : Binary) : Nat → Int → Nat × Int
  | 0, power => (0, power)
  | steps + 1, power =>
    match b.onGrid? power with
    | some digits => (digits, power)
    | none => b.search steps (power - 1)

def shortest (b : Binary) : Nat × Int :=
  let magnitude : Int := ((b.mantissa.log2 : Int) + b.exponent) * 30103 / 100000
  b.search 25 (magnitude + 2)

end Binary

/-- Decimal digits with a point behind the first `point` of them. -/
def withPoint (digits : List Char) (point : Nat) : List Char :=
  digits.take point ++ '.' :: digits.drop point

/--
The text of `digits * 10 ^ power`: positional from `0.00001` up to sixteen places before the point,
and beyond with an exponent, which has a sign in any case.
-/
def decimalText (digits : Nat) (power : Int) : String :=
  let ds := (toString digits).toList
  let places : Int := ds.length + power
  if 0 ≤ power && places ≤ 16 then
    String.ofList (ds ++ List.replicate power.toNat '0' ++ ['.', '0'])
  else if 0 < places && places ≤ 16 then
    String.ofList (withPoint ds places.toNat)
  else if -5 < places && places ≤ 0 then
    String.ofList ('0' :: '.' :: List.replicate (-places).toNat '0' ++ ds)
  else
    let head := if ds.length = 1 then ds else withPoint ds 1
    String.ofList head ++ (if 0 < places then "e+" else "e") ++ toString (places - 1)

def floatText (bits : Nat) : String :=
  let sign := if bits / Nat.pow 2 63 = 1 then "-" else ""
  if bits % Nat.pow 2 63 = 0 then sign ++ "0.0"
  else
    let (digits, power) := (Binary.ofBits (bits % Nat.pow 2 63)).shortest
    sign ++ decimalText digits power

end Facade.Json
