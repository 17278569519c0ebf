import SparseTables.Bounds
import SparseTables.Number.Layout

/-
  This file defines JSON documents.  Numbers are integers
  within 64 bits, signed or unsigned, or binary numbers.

  Key definitions include:
    * `Json`
    * `Json.member?`
    * `Json.fields?`
-/

namespace SparseTables

/- A document; the members of an object are in text order. -/
inductive Json where
  | null
  | bool (b : Bool)
  | integer (i : Int)
  | real (x : Number)
  | string (s : String)
  | array (items : List Json)
  | object (members : List (String × Json))
deriving Inhabited

namespace Json

/- The last member of a name counts. -/
def last? (name : String) (members : List (String × Json)) :
    Option Json :=
  members.reverse.lookup name

/- The member of an object. -/
def member? (name : String) : Json → Option Json
  | object members => last? name members
  | _ => none

/-
  The fields of a record: the members of an object, or all
  items of an array in the order of the names.
-/
def fields? (names : List String) : Json → Option (List Json)
  | object members => names.mapM fun name => last? name members
  | array items =>
      if items.length = names.length then some items else none
  | _ => none

def string? : Json → Option String
  | string s => some s
  | _ => none

def bool? : Json → Option Bool
  | bool b => some b
  | _ => none

/- An integer that is not negative and fits 64 bits. -/
def natural? : Json → Option Nat
  | integer i =>
      if 0 ≤ i ∧ i < Bounds.word64 then
        some i.toNat
      else
        none
  | _ => none

/- A list whose items can all be read. -/
def list? {α : Type}
    (item? : Json → Option α) : Json → Option (List α)
  | array items => items.mapM item?
  | _ => none

end Json

end SparseTables
