import SparseTables.Json.Basic

/-
  This file writes JSON documents as text.

  Key definitions include:
    * `Json.write`
-/

namespace SparseTables

namespace Json

/- A code unit as four hexadecimal digits. -/
def fourDigits (n : Nat) : List Char :=
  let digits := Nat.toDigits 16 n
  List.replicate (4 - digits.length) '0' ++ digits

/- One character of a string. -/
def escapeChar (c : Char) : List Char :=
  if c == '"' then ['\\', '"']
  else if c == '\\' then ['\\', '\\']
  else if c == '\n' then ['\\', 'n']
  else if c == '\r' then ['\\', 'r']
  else if c == '\t' then ['\\', 't']
  else if c.toNat < 0x20 then
    '\\' :: 'u' :: fourDigits c.toNat
  else
    [c]

/- A string in quotes. -/
def quoted (s : String) : String :=
  String.ofList
    ('"' :: (s.toList.flatMap escapeChar ++ ['"']))

mutual

/- The text of a document. -/
def write : Json → String
  | null => "null"
  | bool b => toString b
  | integer i => toString i
  | real x => if x.isFinite then x.debug else "null"
  | string s => quoted s
  | array items => "[" ++ writeItems items ++ "]"
  | object members => "\x7b" ++ writeMembers members ++ "\x7d"

/- Items with commas between them. -/
def writeItems : List Json → String
  | [] => ""
  | [item] => write item
  | item :: rest => write item ++ "," ++ writeItems rest

/- Members with commas between them. -/
def writeMembers : List (String × Json) → String
  | [] => ""
  | [(name, value)] => quoted name ++ ":" ++ write value
  | (name, value) :: rest =>
      quoted name ++ ":" ++ write value ++ "," ++
        writeMembers rest

end

end Json

end SparseTables
