import SparseTables.Bounds

/-
  This file reads and writes the times at which items were
  created and last modified: `YYYY-MM-DD HH:MM:SS`.

  Reading is lenient about blanks before numbers and about
  numbers with fewer digits.  It fails at the first part of
  the text that does not fit.

  Key definitions include:
    * `Timestamp`
    * `Timestamp.Fault`
    * `Timestamp.read`
    * `Timestamp.write`
-/

namespace SparseTables

------------------------------------------------------------
-- Timestamps
------------------------------------------------------------

/-
  A time of day on a date.  A leap second is the second 60.
-/
structure Timestamp where
  year : Int
  month : Nat
  day : Nat
  hour : Nat
  minute : Nat
  second : Nat
deriving DecidableEq

namespace Timestamp

/- Why a text is no timestamp. -/
inductive Fault where
  | invalid
  | tooShort
  | tooLong
  | outOfRange
deriving DecidableEq

def Fault.message : Fault → String
  | invalid => "input contains invalid characters"
  | tooShort => "premature end of input"
  | tooLong => "trailing input"
  | outOfRange => "input is out of range"

------------------------------------------------------------
-- The calendar
------------------------------------------------------------

def isLeapYear (year : Int) : Bool :=
  year % 4 == 0 && (year % 100 != 0 || year % 400 == 0)

/- The number of days in a month. -/
def daysIn (year : Int) (month : Nat) : Nat :=
  match month with
  | 2 => if isLeapYear year then 29 else 28
  | 4 | 6 | 9 | 11 => 30
  | _ => 31

/- The years that dates may have. -/
def isYear (year : Int) : Bool :=
  decide (-262143 ≤ year) && decide (year ≤ 262142)

------------------------------------------------------------
-- Reading
------------------------------------------------------------

/- The blank characters that may stand before numbers. -/
def isBlank (c : Char) : Bool :=
  let code := c.toNat
  decide (9 ≤ code ∧ code ≤ 13) || code == 0x20 ||
    code == 0x85 || code == 0xA0 || code == 0x1680 ||
    decide (0x2000 ≤ code ∧ code ≤ 0x200A) ||
    code == 0x2028 || code == 0x2029 || code == 0x202F ||
    code == 0x205F || code == 0x3000

/- The text without blanks at its start. -/
def skip (cs : List Char) : List Char :=
  cs.dropWhile isBlank

/- The value of digits. -/
def valueOf (digits : List Char) : Nat :=
  digits.foldl (fun n c => 10 * n + (c.toNat - 48)) 0

/- An unsigned number of at most `width` digits. -/
def digits
    (width : Option Nat)
    (cs : List Char) : Except Fault (Nat × List Char) :=
  let window := (width.map cs.take).getD cs
  let found := window.takeWhile Char.isDigit
  if cs.isEmpty then
    .error .tooShort
  else if found.isEmpty then
    .error .invalid
  else if Bounds.isSigned64 (valueOf found) then
    .ok (valueOf found, cs.drop found.length)
  else
    .error .outOfRange

/- A number of two digits between bounds. -/
def field
    (least most : Nat)
    (cs : List Char) : Except Fault (Nat × List Char) := do
  let (value, rest) ← digits (some 2) (skip cs)
  if least ≤ value ∧ value ≤ most then
    .ok (value, rest)
  else
    .error .outOfRange

/- A year: four digits, or any number behind a sign. -/
def yearField
    (cs : List Char) : Except Fault (Int × List Char) := do
  let (value, rest) ←
    match skip cs with
    | '-' :: rest => do
        let (value, rest) ← digits none rest
        pure (-(value : Int), rest)
    | '+' :: rest => do
        let (value, rest) ← digits none rest
        pure ((value : Int), rest)
    | rest => do
        let (value, rest) ← digits (some 4) rest
        pure ((value : Int), rest)
  if -Bounds.signed32 ≤ value ∧ value < Bounds.signed32 then
    .ok (value, rest)
  else
    .error .outOfRange

/- A mark between two fields. -/
def mark
    (expected : Char) :
    List Char → Except Fault (List Char)
  | [] => .error .tooShort
  | c :: rest =>
      if c == expected then .ok rest else .error .invalid

/- Read a whole text. -/
def read (text : String) : Except Fault Timestamp := do
  let (year, rest) ← yearField text.toList
  let (month, rest) ← field 1 12 (← mark '-' rest)
  let (day, rest) ← field 1 31 (← mark '-' rest)
  let (hour, rest) ← field 0 23 (skip rest)
  let (minute, rest) ← field 0 59 (← mark ':' rest)
  let (second, rest) ← field 0 60 (← mark ':' rest)
  if !rest.isEmpty then
    .error .tooLong
  else if isYear year && decide (day ≤ daysIn year month) then
    .ok { year, month, day, hour, minute, second }
  else
    .error .outOfRange

------------------------------------------------------------
-- Writing
------------------------------------------------------------

/- A number with zeros before it up to a width. -/
def padded (width n : Nat) : String :=
  let digits := Nat.toDigits 10 n
  String.ofList
    (List.replicate (width - digits.length) '0' ++ digits)

/- A year, with its sign unless it has four digits. -/
def writeYear (year : Int) : String :=
  if year < 0 then
    "-" ++ padded 4 year.natAbs
  else if year ≤ 9999 then
    padded 4 year.natAbs
  else
    "+" ++ padded 4 year.natAbs

/- The text of a timestamp. -/
def write (t : Timestamp) : String :=
  writeYear t.year ++ "-" ++ padded 2 t.month ++ "-" ++
    padded 2 t.day ++ " " ++ padded 2 t.hour ++ ":" ++
    padded 2 t.minute ++ ":" ++ padded 2 t.second

end Timestamp

end SparseTables
