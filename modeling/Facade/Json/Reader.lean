import Facade.Json.Decimal
import Facade.Json.Node
import Facade.Text.Pieces

/-!
This module contains the reading of JSON texts. Every text gives a value with places: where the
text is no JSON, the value has a gap with the fault in it, and nothing behind that is read.
-/

namespace Facade.Json

/-- The rest of a text, and the number of bytes before it. -/
structure Cursor where
  rest : List Char
  position : Nat

namespace Cursor

def ofText (text : List Char) : Cursor :=
  ⟨text, 0⟩

def next (cur : Cursor) : Cursor :=
  match cur.rest with
  | [] => cur
  | c :: cs => ⟨cs, cur.position + c.utf8Size⟩

def isSpace (c : Char) : Bool :=
  c == ' ' || c == '\n' || c == '\t' || c == '\r'

def skipSpace (cur : Cursor) : Cursor :=
  go cur.rest cur.position
where
  go : List Char → Nat → Cursor
    | [], position => ⟨[], position⟩
    | c :: cs, position => if isSpace c then go cs (position + 1) else ⟨c :: cs, position⟩

def peekPosition (cur : Cursor) : Nat :=
  match cur.rest with
  | [] => cur.position
  | _ :: _ => cur.position + 1

def faultAhead (cur : Cursor) (complaint : Complaint) : Fault :=
  ⟨complaint, cur.position, cur.peekPosition⟩

end Cursor

/-- A reader that is at `cur` and complains about a part that starts at `start`. -/
def faultAt (start : Nat) (complaint : Complaint) (cur : Cursor) : Except Fault (α × Cursor) :=
  .error ⟨complaint, start, cur.position⟩

/-- Reads the rest of a word such as `null`, letter by letter. -/
def readLetters (start : Nat) : List Char → Cursor → Except Fault (Unit × Cursor)
  | [], cur => .ok ((), cur)
  | letter :: letters, cur =>
    match cur.rest with
    | [] => faultAt start .endInValue cur
    | c :: cs =>
      if c = letter then readLetters start letters ⟨cs, cur.position + c.utf8Size⟩
      else .error ⟨.expectedIdent, start, cur.position + 1⟩

def hexValue? (c : Char) : Option Nat :=
  if '0' ≤ c && c ≤ '9' then some (c.toNat - 48)
  else if 'a' ≤ c && c ≤ 'f' then some (c.toNat - 87)
  else if 'A' ≤ c && c ≤ 'F' then some (c.toNat - 55)
  else none

def hexNumber? (digits : List Char) : Option Nat :=
  digits.foldl (fun n c => do return 16 * (← n) + (← hexValue? c)) (some 0)

/-- The number of bytes of a text, which no byte beyond the fourth is counted of. -/
def fewBytes (text : List Char) : Nat :=
  Text.byteLength (text.take 4)

def readUnit (start : Nat) (cur : Cursor) : Except Fault (Nat × Cursor) :=
  let digits := cur.rest.take 4
  if fewBytes cur.rest < 4 then .error ⟨.endInString, start, cur.position + fewBytes cur.rest⟩
  else
    match digits.length, hexNumber? digits with
    | 4, some n => .ok (n, ⟨cur.rest.drop 4, cur.position + 4⟩)
    | _, _ => .error ⟨.invalidEscape, start, cur.position + 4⟩

def readLink (start : Nat) (link : Char) (cur : Cursor) : Except Fault (Unit × Cursor) :=
  match cur.rest with
  | [] => faultAt start .endInString cur
  | c :: cs =>
    if c = link then .ok ((), ⟨cs, cur.position + 1⟩)
    else .error ⟨.unfinishedSurrogate, start, cur.position + 1⟩

def readUnits (start : Nat) (cur : Cursor) : Except Fault (Char × Cursor) := do
  let (first, cur) ← readUnit start cur
  if 0xDC00 ≤ first && first ≤ 0xDFFF then faultAt start .loneSurrogate cur
  else if first < 0xD800 || 0xDBFF < first then return (Char.ofNat first, cur)
  else
    -- this is the first half of a pair, and the second one needs an escape of its own
    let (_, cur) ← readLink start '\\' cur
    let (_, cur) ← readLink start 'u' cur
    let (second, cur) ← readUnit start cur
    if second < 0xDC00 || 0xDFFF < second then faultAt start .loneSurrogate cur
    else return (Char.ofNat ((first - 0xD800) * 1024 + (second - 0xDC00) + 0x10000), cur)

def readEscape (start : Nat) (cur : Cursor) : Except Fault (Char × Cursor) :=
  match cur.rest with
  | [] => faultAt start .endInString cur
  | c :: cs =>
    let behind : Cursor := ⟨cs, cur.position + 1⟩
    if c = '"' || c = '\\' || c = '/' then .ok (c, behind)
    else if c = 'b' then .ok ('\x08', behind)
    else if c = 'f' then .ok ('\x0c', behind)
    else if c = 'n' then .ok ('\n', behind)
    else if c = 'r' then .ok ('\r', behind)
    else if c = 't' then .ok ('\t', behind)
    else if c = 'u' then readUnits start behind
    else .error ⟨.invalidEscape, start, cur.position + 1⟩

/-- Reads a string behind its opening quote. `fuel` bounds the characters read. -/
def readString (start : Nat) : (fuel : Nat) → Cursor → Except Fault (List Char × Cursor)
  | 0, cur => faultAt start .endInString cur
  | fuel + 1, cur =>
    match cur.rest with
    | [] => faultAt start .endInString cur
    | c :: cs =>
      if c = '"' then .ok ([], ⟨cs, cur.position + 1⟩)
      else if c = '\\' then do
        let (c, cur) ← readEscape start ⟨cs, cur.position + 1⟩
        let (text, cur) ← readString start fuel cur
        return (c :: text, cur)
      else if c.toNat < 32 then .error ⟨.controlCharacter, start, cur.position + 1⟩
      else do
        let (text, cur) ← readString start fuel ⟨cs, cur.position + c.utf8Size⟩
        return (c :: text, cur)

def isDigit (c : Char) : Bool :=
  '0' ≤ c && c ≤ '9'

def digitsValue (digits : List Char) : Nat :=
  digits.foldl (fun n c => 10 * n + (c.toNat - 48)) 0

def readDigits (cur : Cursor) : List Char × Cursor :=
  let digits := cur.rest.takeWhile isDigit
  (digits, ⟨cur.rest.drop digits.length, cur.position + digits.length⟩)

def significandBound : Nat := 18446744073709551616

/-- As many of the digits as keep the number below the bound, added to `n`, and how many are left. -/
def takeDigits (n : Nat) : List Char → Nat × Nat
  | [] => (n, 0)
  | c :: cs =>
    let m := 10 * n + (c.toNat - 48)
    if m < significandBound then takeDigits m cs else (n, cs.length + 1)

def tenTo (power : Nat) : Float :=
  Float.ofScientific 1 false power

/--
`significand * 10 ^ exponent` as a floating point number: the significand is rounded, and then the
product. Beyond the powers of ten that exist it is first divided by the greatest one. There is no
number beyond the greatest finite one.
-/
def scaleFloat? : (fuel : Nat) → Float → Int → Option Float
  | 0, _, _ => none
  | fuel + 1, f, exponent =>
    if exponent.natAbs ≤ 308 then
      let scaled := if 0 ≤ exponent then f * tenTo exponent.natAbs else f / tenTo exponent.natAbs
      if scaled.isInf then none else some scaled
    else if f == 0.0 then some f
    else if 0 ≤ exponent then none
    else scaleFloat? fuel (f / tenTo 308) (exponent + 308)

def exponentBound : Nat := 2147483647

def makeDecimal (start : Nat) (negative : Bool) (significand : Nat) (exponent : Int)
    (cur : Cursor) : Except Fault (Atom × Cursor) :=
  match scaleFloat? (exponent.natAbs + 1) significand.toFloat exponent with
  | some f => .ok (.decimal (floatText (if negative then -f else f).toBits.toNat), cur)
  | none => faultAt start .numberOutOfRange cur

/-- Reads the exponent of a number behind its `e`. -/
def readExponent (start : Nat) (negative : Bool) (significand : Nat) (exponent : Int)
    (cur : Cursor) : Except Fault (Atom × Cursor) :=
  let (down, cur) :=
    match cur.rest with
    | '+' :: _ => (false, cur.next)
    | '-' :: _ => (true, cur.next)
    | _ => (false, cur)
  match cur.rest with
  | [] => faultAt start .endInValue cur
  | c :: _ =>
    if !isDigit c then .error ⟨.invalidNumber, start, cur.position + 1⟩
    else
      let (digits, behind) := readDigits cur
      let power := digitsValue digits
      if power ≤ exponentBound then
        makeDecimal start negative significand
          (if down then exponent - power else exponent + power) behind
      -- what is too great is an error, and what is too small is zero
      else if significand != 0 && !down then
        let fitting := (List.range digits.length).countP fun n =>
          digitsValue (digits.take (n + 1)) ≤ exponentBound
        .error ⟨.numberOutOfRange, start, cur.position + fitting + 1⟩
      else .ok (.decimal (if negative then "-0.0" else "0.0"), behind)

def readFraction (start : Nat) (negative : Bool) (significand : Nat) (exponent : Int)
    (cur : Cursor) : Except Fault (Atom × Cursor) :=
  let (digits, behind) := readDigits cur
  if digits.isEmpty then
    .error (match cur.rest with
      | [] => ⟨.endInValue, start, cur.position⟩
      | _ :: _ => ⟨.invalidNumber, start, cur.position + 1⟩)
  else
    let (significand, left) := takeDigits significand digits
    let exponent := exponent - (digits.length - left : Nat)
    match behind.rest with
    | 'e' :: _ => readExponent start negative significand exponent behind.next
    | 'E' :: _ => readExponent start negative significand exponent behind.next
    | _ => makeDecimal start negative significand exponent behind

def readTail (start : Nat) (negative : Bool) (digits : List Char) (cur : Cursor) : Except Fault (Atom × Cursor) :=
  let (significand, left) := takeDigits 0 digits
  match cur.rest with
  | '.' :: _ => readFraction start negative significand left cur.next
  | 'e' :: _ => readExponent start negative significand left cur.next
  | 'E' :: _ => readExponent start negative significand left cur.next
  | _ =>
    if left != 0 then makeDecimal start negative significand left cur
    else if !negative then .ok (.integer significand, cur)
    -- neither minus zero nor what is below the least word is an integer
    else if significand = 0 || significandBound < 2 * significand then
      makeDecimal start true significand 0 cur
    else .ok (.integer (-significand), cur)

/-- Reads a number behind its sign. A number has no leading zeros. -/
def readNumber (start : Nat) (negative : Bool) (cur : Cursor) : Except Fault (Atom × Cursor) :=
  match cur.rest with
  | [] => faultAt start .endInValue cur
  | c :: cs =>
    if c = '0' then
      match cs with
      | d :: _ =>
        if isDigit d then .error ⟨.invalidNumber, start, cur.position + 2⟩
        else readTail start negative ['0'] cur.next
      | [] => readTail start negative ['0'] cur.next
    else if isDigit c then
      let (digits, behind) := readDigits cur
      readTail start negative digits behind
    else .error ⟨.invalidNumber, start, cur.position + 1⟩

def ofOutcome (start : Nat) : Except Fault (Atom × Cursor) → Node × Option Cursor
  | .ok (value, cur) => (.atom value start cur.position, some cur)
  | .error fault => (.broken fault, none)

def brokenAhead (complaint : Complaint) (cur : Cursor) : Node × Option Cursor :=
  (.broken (cur.faultAhead complaint), none)

/-- Reads a value that starts with the character `c` and has no parts. -/
def readAtom (c : Char) (cur : Cursor) : Node × Option Cursor :=
  let start := cur.position
  let word (letters : String) (value : Atom) :=
    ofOutcome start ((readLetters start letters.toList cur.next).map fun (_, cur) => (value, cur))
  if c = 'n' then word "ull" .null
  else if c = 't' then word "rue" (.flag true)
  else if c = 'f' then word "alse" (.flag false)
  else if c = '-' then ofOutcome start (readNumber start true cur.next)
  else if isDigit c then ofOutcome start (readNumber start false cur)
  else if c = '"' then
    ofOutcome start <| (readString start (cur.rest.length + 1) cur.next).map fun (text, cur) =>
      (.text (String.ofList text), cur)
  else brokenAhead .expectedValue cur

/-- Where a reader that gives up behind a key stops. -/
def restingPlace (cur : Cursor) : Nat :=
  match cur.skipSpace.rest with
  | '\x7d' :: _ => cur.skipSpace.position + 1
  | _ => cur.skipSpace.position

/-- What stands before an item of a list or an entry of an object: nothing, or a comma. -/
inductive Turn where
  | first
  | later

mutual

/-- Reads a value. `fuel` bounds the values and separators read. -/
def readValue : (fuel : Nat) → Cursor → Node × Option Cursor
  | 0, cur => brokenAhead .endInValue cur
  | fuel + 1, cur =>
    let cur := cur.skipSpace
    match cur.rest with
    | [] => brokenAhead .endInValue cur
    | '[' :: _ =>
      let (items, ending, behind) := readItems fuel .first cur.next
      (.list cur.position items ending, behind)
    | '\x7b' :: _ =>
      let (entries, ending, behind) := readEntries fuel .first cur.next
      (.table cur.position entries ending, behind)
    | c :: _ => readAtom c cur

def readItems : (fuel : Nat) → Turn → Cursor →
    List Node × Except Fault Nat × Option Cursor
  | 0, _, cur => ([], .error (cur.faultAhead .endInList), none)
  | fuel + 1, turn, cur =>
    let cur := cur.skipSpace
    match cur.rest, turn with
    | [], _ => ([], .error (cur.faultAhead .endInList), none)
    | ']' :: _, _ => ([], .ok cur.next.position, some cur.next)
    | _ :: _, .first => readItem fuel cur
    | ',' :: _, .later =>
      let cur := cur.next.skipSpace
      match cur.rest with
      | [] => ([], .error (cur.faultAhead .endInValue), none)
      | ']' :: _ => ([], .error (cur.faultAhead .trailingComma), none)
      | _ :: _ => readItem fuel cur
    | _ :: _, .later => ([], .error (cur.faultAhead .expectedCommaOrBracket), none)

def readItem : (fuel : Nat) → Cursor → List Node × Except Fault Nat × Option Cursor
  | 0, cur => ([], .error (cur.faultAhead .endInList), none)
  | fuel + 1, cur =>
    match readValue fuel cur with
    | (item, none) => ([item], .error (cur.faultAhead .endInList), none)
    | (item, some cur) =>
      let (items, ending, behind) := readItems fuel .later cur
      (item :: items, ending, behind)

def readEntries : (fuel : Nat) → Turn → Cursor →
    List (Key × Node × Nat) × Except Fault Nat × Option Cursor
  | 0, _, cur => ([], .error (cur.faultAhead .endInObject), none)
  | fuel + 1, turn, cur =>
    let cur := cur.skipSpace
    match cur.rest, turn with
    | [], _ => ([], .error (cur.faultAhead .endInObject), none)
    | '\x7d' :: _, _ => ([], .ok cur.next.position, some cur.next)
    | '"' :: _, .first => readEntry fuel cur
    | _ :: _, .first => ([], .error (cur.faultAhead .keyNotString), none)
    | ',' :: _, .later =>
      let cur := cur.next.skipSpace
      match cur.rest with
      | [] => ([], .error (cur.faultAhead .endInValue), none)
      | '"' :: _ => readEntry fuel cur
      | '\x7d' :: _ => ([], .error (cur.faultAhead .trailingComma), none)
      | _ :: _ => ([], .error (cur.faultAhead .keyNotString), none)
    | _ :: _, .later => ([], .error (cur.faultAhead .expectedCommaOrBrace), none)

def readEntry : (fuel : Nat) → Cursor →
    List (Key × Node × Nat) × Except Fault Nat × Option Cursor
  | 0, cur => ([], .error (cur.faultAhead .endInObject), none)
  | fuel + 1, cur =>
    match readString cur.position (cur.rest.length + 1) cur.next with
    | .error fault => ([], .error fault, none)
    | .ok (name, behindKey) =>
      let key : Key := ⟨String.ofList name, behindKey.position, restingPlace behindKey⟩
      let cur := behindKey.skipSpace
      let (node, behind) :=
        match cur.rest with
        | ':' :: _ => readValue fuel cur.next
        | [] => brokenAhead .endInObject cur
        | _ :: _ => brokenAhead .expectedColon cur
      match behind with
      | none => ([(key, node, 0)], .error (cur.faultAhead .endInObject), none)
      | some cur =>
        let (entries, ending, behind) := readEntries fuel .later cur
        ((key, node, cur.skipSpace.position) :: entries, ending, behind)

end

/-- A JSON text: its value, and the fault of what stands behind it. -/
structure Document where
  node : Node
  surplus? : Option Fault

def Document.ofText (text : String) : Document :=
  let chars := text.toList
  match readValue (3 * chars.length + 3) (.ofText chars) with
  | (node, none) => ⟨node, none⟩
  | (node, some cur) =>
    match cur.skipSpace.rest with
    | [] => ⟨node, none⟩
    | _ :: _ => ⟨node, some (cur.skipSpace.faultAhead .trailingCharacters)⟩

end Facade.Json
