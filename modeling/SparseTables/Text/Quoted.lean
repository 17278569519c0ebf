import SparseTables.Text.Shown

/-
  This file writes text in double quotes, as error texts show
  the text of a cell or a timestamp.

  Letters name the usual escapes; every other character that
  is not shown as itself appears by its code in hexadecimal.

  Key definitions include:
    * `Quoted.escape`
    * `Quoted.quote`
-/

namespace SparseTables

namespace Quoted

/- The code of a character in braces. -/
def byCode (c : Char) : List Char :=
  '\\' :: 'u' :: '\x7b' ::
    (Nat.toDigits 16 c.toNat ++ ['\x7d'])

/- One character between the quotes. -/
def escape (c : Char) : List Char :=
  if c == '\x00' then ['\\', '0']
  else if c == '\t' then ['\\', 't']
  else if c == '\r' then ['\\', 'r']
  else if c == '\n' then ['\\', 'n']
  else if c == '\\' then ['\\', '\\']
  else if c == '"' then ['\\', '"']
  else if Shown.isShown c then [c]
  else byCode c

/- The text in quotes. -/
def quote (text : String) : String :=
  String.ofList
    ('"' :: (text.toList.flatMap escape ++ ['"']))

end Quoted

end SparseTables
