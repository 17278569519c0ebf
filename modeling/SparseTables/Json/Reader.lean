import SparseTables.Json.Basic
import SparseTables.Number.Decimal

/-
  This file reads JSON text.

  A number without point and exponent stays an integer if it
  fits 64 bits.  Any other one is rounded to the nearest
  binary number, which must be finite.

  Key definitions include:
    * `Json.Literal`
    * `Json.Literal.toJson?`
    * `Json.read?`
-/

namespace SparseTables

namespace Json

------------------------------------------------------------
-- Numbers
------------------------------------------------------------

/- The parts of a number as they are written. -/
structure Literal where
  negative : Bool
  whole : List Char
  places : List Char
  exponent : Int
  /- Neither a point nor an exponent was written. -/
  plain : Bool

namespace Literal

/- The decimal of a literal. -/
def toDecimal (literal : Literal) : Decimal where
  negative := literal.negative
  digits := Decimal.value (literal.whole ++ literal.places)
  scale := literal.exponent - literal.places.length
  plain := literal.plain

/- The document of a literal. -/
def toJson? (literal : Literal) : Option Json :=
  let value := Decimal.value literal.whole
  if literal.plain && !literal.negative &&
      decide (value < Bounds.word64) then
    some (integer value)
  else if literal.plain && literal.negative &&
      decide (0 < value ∧ (value : Int) ≤ Bounds.signed64) then
    some (integer (-(value : Int)))
  else
    let x := literal.toDecimal.toNumber
    if x.isFinite then some (real x) else none

end Literal

/- A sequence of digits that is not empty. -/
def digits? (cs : List Char) :
    Option (List Char × List Char) :=
  let (digits, rest) := Decimal.span cs
  if digits.isEmpty then none else some (digits, rest)

/- An optional exponent. -/
def exponent? : List Char → Option (Option Int × List Char)
  | [] => some (none, [])
  | c :: rest =>
      if c == 'e' || c == 'E' then do
        let (negative, body) := Decimal.sign rest
        let (digits, rest) ← digits? body
        let size : Int := Decimal.value digits
        pure (some (if negative then -size else size), rest)
      else
        some (none, c :: rest)

/- A number at the start of a text. -/
def number? (cs : List Char) : Option (Json × List Char) := do
  let (negative, body) :=
    match cs with
    | '-' :: rest => (true, rest)
    | cs => (false, cs)
  let (whole, afterWhole) ← digits? body
  let (places, afterPlaces) ←
    match afterWhole with
    | '.' :: rest => do
        let (places, rest) ← digits? rest
        pure (some places, rest)
    | rest => pure (none, rest)
  let (exponent, rest) ← exponent? afterPlaces
  let literal : Literal :=
    { negative, whole
      places := places.getD []
      exponent := exponent.getD 0
      plain := places.isNone && exponent.isNone }
  if whole.length ≠ 1 ∧ whole.head? = some '0' then
    none
  else
    (← literal.toJson?, rest)

------------------------------------------------------------
-- Strings
------------------------------------------------------------

/- The value of a hexadecimal digit. -/
def hex? (c : Char) : Option Nat :=
  if c.isDigit then some (c.toNat - 48)
  else if 'a' ≤ c ∧ c ≤ 'f' then some (c.toNat - 87)
  else if 'A' ≤ c ∧ c ≤ 'F' then some (c.toNat - 55)
  else none

/- Four hexadecimal digits. -/
def unit? : List Char → Option (Nat × List Char)
  | a :: b :: c :: d :: rest => do
      let high := 16 * (← hex? a) + (← hex? b)
      let low := 16 * (← hex? c) + (← hex? d)
      pure (256 * high + low, rest)
  | _ => none

/- The character of one escape letter. -/
def escaped? : Char → Option Char
  | '"' => some '"'
  | '\\' => some '\\'
  | '/' => some '/'
  | 'b' => some '\x08'
  | 'f' => some '\x0c'
  | 'n' => some '\n'
  | 'r' => some '\r'
  | 't' => some '\t'
  | _ => none

/- The character of one unit or a pair of them. -/
def coded? (cs : List Char) : Option (Char × List Char) := do
  let (first, rest) ← unit? cs
  if first < 0xD800 ∨ 0xE000 ≤ first then
    pure (Char.ofNat first, rest)
  else if 0xDC00 ≤ first then
    none
  else
    match rest with
    | '\\' :: 'u' :: rest => do
        let (second, rest) ← unit? rest
        if 0xDC00 ≤ second ∧ second < 0xE000 then
          let code :=
            0x10000 + 1024 * (first - 0xD800) +
              (second - 0xDC00)
          pure (Char.ofNat code, rest)
        else
          none
    | _ => none

/- The rest of a string, its read characters in reverse. -/
def stringFrom
    (read : List Char) :
    Nat → List Char → Option (String × List Char)
  | 0, _ => none
  | steps + 1, cs =>
      match cs with
      | '"' :: rest =>
          some (String.ofList read.reverse, rest)
      | '\\' :: 'u' :: rest => do
          let (c, rest) ← coded? rest
          stringFrom (c :: read) steps rest
      | '\\' :: letter :: rest => do
          stringFrom ((← escaped? letter) :: read) steps rest
      | c :: rest =>
          if c.toNat < 0x20 then
            none
          else
            stringFrom (c :: read) steps rest
      | [] => none

/- The rest of a string behind its opening quote. -/
def stringBody (cs : List Char) : Option (String × List Char) :=
  stringFrom [] (cs.length + 1) cs

------------------------------------------------------------
-- Documents
------------------------------------------------------------

/- The text without blanks at its start. -/
def skip (cs : List Char) : List Char :=
  cs.dropWhile fun c =>
    c == ' ' || c == '\n' || c == '\r' || c == '\t'

/- A word at the start of a text. -/
def word? (word : String) (value : Json) (cs : List Char) :
    Option (Json × List Char) :=
  if word.toList.isPrefixOf cs then
    some (value, cs.drop word.length)
  else
    none

/- What is being read. -/
inductive Goal where
  | value
  | items (read : List Json)
  | members (read : List (String × Json))

/-
  Read a value, or the items or members that remain.  Each
  two steps read a character, so twice the length is enough.
-/
def readFrom :
    Nat → Goal → List Char → Option (Json × List Char)
  | 0, _, _ => none
  | steps + 1, .value, cs =>
      match skip cs with
      | '\x7b' :: rest =>
          match skip rest with
          | '\x7d' :: rest => some (object [], rest)
          | rest => readFrom steps (.members []) rest
      | '[' :: rest =>
          match skip rest with
          | ']' :: rest => some (array [], rest)
          | rest => readFrom steps (.items []) rest
      | '"' :: rest => do
          let (s, rest) ← stringBody rest
          pure (string s, rest)
      | 'n' :: rest => word? "null" null ('n' :: rest)
      | 't' :: rest => word? "true" (bool true) ('t' :: rest)
      | 'f' :: rest => word? "false" (bool false) ('f' :: rest)
      | rest => number? rest
  | steps + 1, .items read, cs => do
      let (item, rest) ← readFrom steps .value cs
      match skip rest with
      | ',' :: rest => readFrom steps (.items (item :: read)) rest
      | ']' :: rest => some (array (item :: read).reverse, rest)
      | _ => none
  | steps + 1, .members read, cs =>
      match skip cs with
      | '"' :: rest => do
          let (name, rest) ← stringBody rest
          match skip rest with
          | ':' :: rest => do
              let (value, rest) ← readFrom steps .value rest
              let read := (name, value) :: read
              match skip rest with
              | ',' :: rest => readFrom steps (.members read) rest
              | '\x7d' :: rest => some (object read.reverse, rest)
              | _ => none
          | _ => none
      | _ => none

/- Read a whole text as one document. -/
def read? (text : String) : Option Json := do
  let cs := text.toList
  let (value, rest) ← readFrom (2 * cs.length + 2) .value cs
  if (skip rest).isEmpty then some value else none

end Json

end SparseTables
