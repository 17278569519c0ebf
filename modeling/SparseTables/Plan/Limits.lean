import SparseTables.Error
import SparseTables.Plan.Course

/-
  This file defines which plans the store refuses before it
  runs them: those with an operator that is none, with two
  aliases that are the same but for letter case, or with a
  part beyond the bounds of the store.

  Conditions are bounded by their depth: a list of them is a
  chain, each link one deeper than what is before it.

  Key definitions include:
    * `Plan.tables`
    * `Plan.depth`
    * `Plan.prepare`
-/

namespace SparseTables

------------------------------------------------------------
-- Depth
------------------------------------------------------------

/- The depth of a chain of conditions. -/
def chainDepth (first : Nat) (rest : List Nat) : Nat :=
  rest.foldl (fun depth next => max depth next + 1) first

/- A comparison of a column is three deep. -/
def Predicate.depth : Predicate → Nat
  | never => 2
  | compare _ _ _ => 3
  | .matches _ _ => 3

/- The depth of what ties a join to the others. -/
def Join.depth : Join → Nat
  | attr _ _ => 4
  | _ => 3

/- The depth of a filter. -/
def Filter.depth (filter : Filter) : Nat :=
  chainDepth (if filter.table.isSome then 3 else 2)
    (filter.groups.filterMap fun group =>
      match group.2.map Predicate.depth with
      | first :: rest => some (chainDepth first rest)
      | [] => none)

namespace Plan

/- The depth of the filter with all joins. -/
def depth (plan : Plan) : Nat :=
  chainDepth plan.filter.depth (plan.joins.map Join.depth)

------------------------------------------------------------
-- Bounds
------------------------------------------------------------

/-
  The tables of a plan.  The values of an attribute are two
  tables seen as one; they count apart if every row must have
  a value.
-/
def tables (plan : Plan) : Nat :=
  plan.aliases.length +
    (plan.joins.filter fun join =>
      join.isAttribute && plan.isLimited join).length

/- The most tables that a plan may have. -/
def mostTables : Nat :=
  64

/- The most columns, and the most orders. -/
def mostColumns : Nat :=
  2000

/- The greatest depth of conditions. -/
def mostDepth : Nat :=
  1000

------------------------------------------------------------
-- Refusal
------------------------------------------------------------

/- The operators of comparisons. -/
def operators (plan : Plan) : List String :=
  (plan.filter.groups.flatMap Prod.snd).filterMap fun
    | .compare _ op _ => some op
    | _ => none

/- The first alias that an earlier one spells. -/
def clash? : List String → Option String
  | [] => none
  | label :: rest =>
      if rest.any (Word.sameLetters label) then
        some label
      else
        clash? rest

/- Refuse a plan that the store cannot run. -/
def prepare (plan : Plan) : Except Error Unit := do
  match plan.operators.find? fun op =>
      (Operator.ofText? op).isNone with
  | some op => throw (.store (.unknownOperator op))
  | none => pure ()
  if mostDepth < plan.depth then
    throw (.store .tooDeep)
  if mostColumns < plan.outputs.length then
    throw (.store .tooManyColumns)
  if mostColumns < plan.orders.length then
    throw (.store .tooManyOrders)
  match clash? plan.aliases with
  | some label => throw (.store (.ambiguousAlias label))
  | none => pure ()
  if mostTables < plan.tables then
    throw (.store .tooManyTables)

end Plan

end SparseTables
