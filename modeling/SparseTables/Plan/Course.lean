import SparseTables.Plan.Comparison

/-
  This file defines in which order the store joins the parts
  of a plan.

  The order decides which conditions a row meets, and so
  whether a search is ever asked for.  Some searches come
  before the items: they go through all stored texts.  All
  other searches come last, when everything else is known
  of a row.

  Key definitions include:
    * `Filter.conditions`
    * `Filter.due`
    * `Plan.early`
    * `Plan.beforeItems`
    * `Plan.afterItems`
-/

namespace SparseTables

------------------------------------------------------------
-- Conditions
------------------------------------------------------------

/- The alias that an expression is taken from. -/
def Expr.source : Expr → String
  | value label _ => label
  | _ => itemAlias

namespace Predicate

def isSearch : Predicate → Bool
  | .matches _ _ => true
  | _ => false

/- The alias that a predicate speaks of. -/
def source? : Predicate → Option String
  | never => none
  | compare left _ _ => some left.source
  | .matches label _ => some label

/- The expression that a predicate compares. -/
def expr? : Predicate → Option Expr
  | compare left _ _ => some left
  | _ => none

/- Is a predicate an equality with some column? -/
def fixes (isMeant : Expr → Bool) : Predicate → Bool
  | compare left op _ =>
      isMeant left && Operator.ofText? op == some .equal
  | _ => false

end Predicate

namespace Filter

/- Must all predicates of a group hold? -/
def isStrict (group : Combine × List Predicate) : Bool :=
  group.1 = .all || group.2.length ≤ 1

/- The predicates that every row must satisfy. -/
def strict (filter : Filter) : List Predicate :=
  (filter.groups.filter isStrict).flatMap Prod.snd

/- The groups of which one predicate must hold. -/
def loose (filter : Filter) : List (List Predicate) :=
  (filter.groups.filter fun group => !isStrict group).map
    Prod.snd

/-
  The conditions in their order, each a list of alternatives.
  The searches that all rows must satisfy are not among them:
  they are part of their joins.
-/
def conditions (filter : Filter) : List (List Predicate) :=
  filter.groups.flatMap fun group =>
    if isStrict group then
      (group.2.filter fun part => !part.isSearch).map
        fun part => [part]
    else
      [group.2]

/- The conditions that the latest aliases have completed. -/
def due
    (filter : Filter)
    (before after : List String) : List (List Predicate) :=
  filter.conditions.filter fun condition =>
    let needs := condition.filterMap Predicate.source?
    needs.all after.contains && !needs.all before.contains

/- Must every row equal a parameter in some column? -/
def fixes (filter : Filter) (isMeant : Expr → Bool) : Bool :=
  filter.strict.any (Predicate.fixes isMeant)

/-
  Do comparisons limit a joined value in every row?  An
  attribute must then have a value.  To be unequal limits no
  key, and neither do alternatives.
-/
def limits (filter : Filter) (label : String) : Bool :=
  let isLimit : Predicate → Bool
    | .compare (.value found _) op _ =>
        let op := Operator.ofText? op
        found == label && op != some .like &&
          (label != keyAlias || op != some .unequal)
    | _ => false
  filter.conditions.any fun condition =>
    !condition.isEmpty && condition.all isLimit &&
      (label != keyAlias || condition.length = 1)

end Filter

------------------------------------------------------------
-- Order
------------------------------------------------------------

/- Where the value is referred to that a search is in. -/
def Join.searched? : Join → Option String
  | search _ source => some source
  | _ => none

def Join.isAttribute : Join → Bool
  | attr _ _ => true
  | _ => false

namespace Plan

/- Does the plan count its rows? -/
def counts (plan : Plan) : Bool :=
  plan.outputs.any fun output => output.1 = .countAll

/- The output column that an alias names; the first counts. -/
def outputNamed? (plan : Plan) (label : String) : Option Expr :=
  (plan.outputs.find? fun output =>
    Word.sameLetters output.2 label).map Prod.fst

/-
  Does the store find rows in the order of an expression?
  Items and keys are kept in order, but not one of the two if
  an equality leads to the rows by the other.
-/
def isKept (plan : Plan) (expr : Expr) : Bool :=
  match expr with
  | .item _ =>
      !plan.filter.fixes fun left => left.source == keyAlias
  | .value label _ =>
      label == keyAlias &&
        !plan.filter.fixes fun left => left.source == itemAlias
  | _ => false

/- Must the rows be sorted once they are found? -/
def sorts (plan : Plan) : Bool :=
  !plan.counts &&
    match plan.orders with
    | [] => false
    | [.output label _] =>
        !(plan.outputNamed? label).any plan.isKept
    | .output label _ :: _ =>
        plan.outputNamed? label != some (.item .id)
    | .rank _ :: _ => true

/- Is a join a search that every row must satisfy? -/
def isStrictSearch (plan : Plan) (join : Join) : Bool :=
  plan.filter.strict.any fun part =>
    part.isSearch && part.source? == some join.label

/- Must every row have a value in a join? -/
def isLimited (plan : Plan) (join : Join) : Bool :=
  join.searched?.isNone && plan.filter.limits join.label

/- Do equalities lead to an item by its identity? -/
def fixesId (plan : Plan) : Bool :=
  plan.filter.fixes fun left => left == .item .id

/- Do equalities lead to items by themselves or their keys? -/
def fixesItems (plan : Plan) : Bool :=
  plan.filter.fixes fun left =>
    left.source == itemAlias || left.source == keyAlias

def attributes (plan : Plan) : List Join :=
  plan.joins.filter Join.isAttribute

/- The attributes that every row must have a value for. -/
def limited (plan : Plan) : List Join :=
  plan.attributes.filter plan.isLimited

/-
  The searches of keys that come before the items: one that
  every row must satisfy, or else the first of them.
-/
def earlyOfKeys (plan : Plan) (searches : List Join) :
    List Join :=
  match searches.find? plan.isStrictSearch with
  | some join =>
      if plan.fixesId || (plan.fixesItems && !plan.sorts) then
        []
      else
        [join]
  | none =>
      if plan.fixesId then
        []
      else if plan.fixesItems &&
          !(plan.sorts && 2 ≤ plan.attributes.length) then
        []
      else
        searches.take 1

/-
  Does the only search come before the items if it is of an
  attribute and every row must satisfy it?
-/
def leadsStrictly (plan : Plan) : Bool :=
  if plan.fixesId then
    false
  else if plan.sorts then
    !plan.fixesItems || plan.limited.isEmpty ||
      2 ≤ plan.attributes.length
  else
    !plan.fixesItems && plan.limited.isEmpty

/-
  Does the only search come before the items if it is of an
  attribute and stands in an alternative?
-/
def leadsLoosely (plan : Plan) (search : Join) : Bool :=
  let fewest := if plan.limited.isEmpty then 2 else 3
  let isLimited := plan.limited.any fun value =>
    search.searched? == some value.label
  if plan.fixesId then
    true
  else if !plan.sorts then
    false
  else if plan.fixesItems && plan.attributes.length < fewest then
    false
  else
    !(isLimited && 2 ≤ plan.limited.length)

/-
  The searches of attributes that come before the items if
  there are more than one.
-/
def earlyOfMany (plan : Plan) (strict loose : List Join) :
    List Join :=
  if plan.fixesId then
    if plan.sorts && strict.isEmpty then loose.take 1 else []
  else if plan.fixesItems then
    if plan.sorts then (strict ++ loose).take 1 else []
  else if strict.length = 1 then
    loose.take 1 ++ strict
  else
    (strict ++ loose).take 2

/-
  The searches that come before the items.  A search of keys
  does, and next to it no other search.  Of searches of
  attributes two do; a single one only if it spares no
  sorting.  Equalities that find the items faster hold
  searches back, the less so the more attributes are joined.
-/
def early (plan : Plan) : List Join :=
  let searches := plan.joins.filter fun join =>
    join.searched?.isSome
  let (ofKeys, ofAttributes) := searches.partition fun join =>
    join.searched? == some itemAlias
  let (strict, loose) := ofAttributes.partition
    plan.isStrictSearch
  if !ofKeys.isEmpty then
    plan.earlyOfKeys ofKeys
  else
    match strict, loose with
    | [join], [] => if plan.leadsStrictly then [join] else []
    | [], [join] =>
        if plan.leadsLoosely join then [join] else []
    | _, _ => plan.earlyOfMany strict loose

/- The early searches of the value that a source refers to. -/
def tied (plan : Plan) (source : String) : List Join :=
  plan.early.filter fun join => join.searched? == some source

/-
  The other searches of that value that every row must
  satisfy.
-/
def followers (plan : Plan) (source : String) : List Join :=
  plan.joins.filter fun join =>
    join.searched? == some source &&
      plan.isStrictSearch join && !plan.early.contains join

/- Joins of values, each with the searches behind it. -/
def withSearches
    (plan : Plan)
    (joins : List Join) : List Join :=
  joins.flatMap fun join =>
    join :: (plan.tied join.label ++ plan.followers join.label)

/-
  The values that are joined before the items: those that
  comparisons limit, unless a search of keys leads to the
  items.
-/
def beforeItems (plan : Plan) : List Join :=
  if (plan.tied itemAlias).isEmpty then
    plan.withSearches (plan.joins.filter plan.isLimited)
  else
    []

/-
  The joins behind the items, in their order.  If a search
  of keys leads to the items and the rows must be sorted, the
  first limited attributes come before the key.
-/
def afterItems (plan : Plan) : List Join :=
  let values := plan.joins.filter fun join =>
    join.searched?.isNone && !plan.beforeItems.contains join
  let (attributes, keys) := values.partition Join.isAttribute
  let first :=
    if plan.sorts then attributes.takeWhile plan.isLimited
    else []
  plan.followers itemAlias ++
    plan.withSearches
      (first ++ keys ++ attributes.drop first.length) ++
    plan.joins.filter fun join =>
      join.searched?.isSome && !plan.isStrictSearch join &&
        !plan.early.contains join

/-
  Are items met in the order of the values of their keys?
  They are in their own order if their times are looked at
  or if other comparisons limit them.
-/
def followsKeys (plan : Plan) : Bool :=
  let isTime : Expr → Bool
    | .item .created | .item .modified => true
    | _ => false
  let limits (part : Predicate) : Bool :=
    match part with
    | .compare (.item _) _ _ => true
    | .compare (.value label _) _ _ => label != keyAlias
    | _ => false
  !(plan.outputs.any (fun output => isTime output.1) ||
    (plan.filter.groups.flatMap Prod.snd).any (fun part =>
      part.expr?.any isTime) ||
    plan.filter.strict.any limits)

end Plan

end SparseTables
