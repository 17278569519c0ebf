import SparseTables.Bounds
import SparseTables.Number.Decimal

/-
  This file reads the paths that the names of settings
  spell.

  A path is a name, then names behind points and places in
  brackets.  Names are ASCII letters, digits, underscores
  and hyphens.  A place is an integer of 64 bits; below zero
  it counts from the end.

  Key definitions include:
    * `Setting.Step`
    * `Setting.stepsOf`
-/

namespace SparseTables

namespace Setting

/- One step down from a section or a list. -/
inductive Step where
  | key (name : String)
  | place (index : Int)
deriving DecidableEq

------------------------------------------------------------
-- Characters
------------------------------------------------------------

/- The characters of a key without quotes. -/
def isKeyChar (c : Char) : Bool :=
  c.isAlphanum || c == '_' || c == '-'

def isSpace (c : Char) : Bool :=
  c == ' ' || c == '\t'

def skip (cs : List Char) : List Char :=
  cs.dropWhile isSpace

------------------------------------------------------------
-- Steps
------------------------------------------------------------

/- A name without quotes, and what follows. -/
def bare? (cs : List Char) : Option (String × List Char) :=
  let found := cs.takeWhile isKeyChar
  if found.isEmpty then
    none
  else
    some (String.ofList found, cs.drop found.length)

/- A place up to its closing bracket, and what follows. -/
def place? (cs : List Char) : Option (Int × List Char) :=
  let (negative, rest) :=
    match skip cs with
    | '-' :: rest => (true, rest)
    | rest => (false, rest)
  let (digits, rest) := Decimal.span rest
  let size : Int := Decimal.value digits
  let index := if negative then -size else size
  match skip rest with
  | ']' :: rest =>
      if !digits.isEmpty && Bounds.isSigned64 index then
        some (index, rest)
      else
        none
  | _ => none

/-
  The steps behind the first name.  The first argument
  bounds their number.
-/
def later? : Nat → List Char → Option (List Step)
  | _, [] => some []
  | n + 1, '.' :: rest => do
      let (name, rest) ← bare? rest
      pure (.key name :: (← later? n rest))
  | n + 1, '[' :: rest => do
      let (index, rest) ← place? rest
      pure (.place index :: (← later? n rest))
  | _, _ => none

/- The steps that a whole text spells. -/
def steps? (text : String) : Option (List Step) := do
  let (name, rest) ← bare? text.toList
  pure (.key name :: (← later? rest.length rest))

/- A text that spells no path is one name as it stands. -/
def stepsOf (text : String) : List Step :=
  (steps? text).getD [.key text]

end Setting

end SparseTables
