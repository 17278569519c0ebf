import SparseTables.Params
import SparseTables.Plan.Course
import SparseTables.Plan.Limits
import SparseTables.Row
import SparseTables.Search.Rank
import SparseTables.Store.Contents

/-
  This file runs plans on the contents of the store.

  A plan that cannot be run is refused first.  The parts of
  the others are joined in their order, and each row meets a
  condition as soon as all that it speaks of is joined.

  A search must be a condition that all rows satisfy.  In a
  real alternative it is refused, but only when a row comes
  to it: a row that satisfies an earlier alternative, or that
  was dropped before, never does.

  Key definitions include:
    * `JoinedRow`
    * `Predicate.anyHolds`
    * `Plan.opens`
    * `Plan.advance`
    * `Plan.matching`
    * `Plan.counted`
    * `Plan.run`
-/

namespace SparseTables

------------------------------------------------------------
-- Joined rows
------------------------------------------------------------

/- The terms of a stored text. -/
structure SearchRow where
  id : Int
  terms : List String
deriving DecidableEq

/- The terms of a value, if it is a text. -/
def SearchRow.ofValue? (value : Value) : Option SearchRow :=
  value.content.text?.map fun text =>
    ⟨value.id, Terms.ofText text⟩

/- An item, joined values, and joined search rows. -/
structure JoinedRow where
  item : ItemRow
  values : List (String × Option Value)
  searches : List (String × SearchRow)
deriving DecidableEq

namespace JoinedRow

/- The value that a source refers to. -/
def valueId? (row : JoinedRow) (source : String) : Option Int :=
  if source == itemAlias then
    some row.item.valueId
  else
    (row.values.lookup source).join.map Value.id

end JoinedRow

/-
  The columns of a value.  The column that it does not use
  is null for a number and zero for a text.
-/
def Value.cell (value : Value) : ValueColumn → Cell
  | .number =>
      match value.content with
      | .number x => .real x
      | .text _ => .real .zero
  | .text =>
      match value.content with
      | .number _ => .null
      | .text s => .text s

/- What an expression gives on a joined row. -/
def Expr.eval (row : JoinedRow) : Expr → Cell
  | null => .null
  | countAll => .null
  | item .id => .integer row.item.id
  | item .created => row.item.created
  | item .modified => row.item.modified
  | value label column =>
      match (row.values.lookup label).join with
      | some found => found.cell column
      | none => .null

namespace Contents

/- The value of an item for an attribute. -/
def slotValue?
    (contents : Contents)
    (itemId attributeId : Int) : Option Value :=
  (contents.slot? itemId attributeId).bind fun slot =>
    contents.value? slot.valueId

/- The terms of all stored texts. -/
def searchRows (contents : Contents) : List SearchRow :=
  contents.values.rows.filterMap SearchRow.ofValue?

/- The terms of a value, if it is a text. -/
def searchRow? (contents : Contents) (id : Int) :
    Option SearchRow :=
  (contents.value? id).bind SearchRow.ofValue?

/- A text among all texts. -/
def placeOf
    (contents : Contents)
    (row : SearchRow) : Search.Place where
  texts := contents.searchRows.map SearchRow.terms
  index := contents.searchRows.findIdx fun other =>
    other.id == row.id

/- A search, or why it cannot be run, for each alias. -/
abbrev Searches :=
  List (String × Except Error Search)

/- Extend a row by one join, or drop it. -/
def joinOne
    (contents : Contents)
    (searches : Searches)
    (row : JoinedRow) :
    Join → Except Error (Option JoinedRow)
  | .key =>
      pure ((contents.value? row.item.valueId).map fun found =>
        { row with
          values := row.values ++ [(keyAlias, some found)] })
  | .attr label id =>
      let found := contents.slotValue? row.item.id id
      pure (some
        { row with values := row.values ++ [(label, found)] })
  | .search label source => do
      let search ← (searches.lookup label).sequence
      pure do
        let id ← row.valueId? source
        let found ← contents.searchRow? id
        if search.all fun search => search.holds found.terms then
          some
            { row with
              searches := row.searches ++ [(label, found)] }
        else
          none

/- Has any stored text what a search asks for? -/
def anyText
    (contents : Contents)
    (searches : Searches)
    (label : String) : Except Error Bool := do
  let search ← (searches.lookup label).sequence
  pure (contents.searchRows.any fun row =>
    search.all fun search => search.holds row.terms)

end Contents

------------------------------------------------------------
-- Conditions
------------------------------------------------------------

/- The cell that a parameter is bound to; NaN is null. -/
def Params.bound (params : Params) (name : String) : Cell :=
  match params.get? name with
  | some (.real x) => if x.isNaN then .null else .real x
  | some cell => cell
  | none => .null

namespace Predicate

/- A comparison or none; searches are treated apart. -/
def compares (params : Params) (row : JoinedRow) :
    Predicate → Bool
  | compare left op param =>
      match Operator.ofText? op with
      | some op =>
          op.holds left (left.eval row) (params.bound param)
      | none => false
  | _ => false

/- The search that a predicate asks for. -/
def search? (params : Params) :
    Predicate → Option (String × Except Error Search)
  | .matches label param =>
      let written :=
        ((params.bound param).storedText?).getD ""
      let search :=
        match Search.read? written with
        | some search => .ok search
        | none => .error (.store (.badSearch written))
      some (label, search)
  | _ => none

/- Does a predicate ask for a pattern beyond the bounds? -/
def isTooLong (params : Params) : Predicate → Bool
  | compare _ op param =>
      Operator.ofText? op == some .like &&
        (params.bound param).storedText?.any fun pattern =>
          Pattern.mostBytes < pattern.utf8ByteSize
  | _ => false

/- Alternatives, tried one after another. -/
def anyHolds
    (params : Params)
    (row : JoinedRow) : List Predicate → Except Error Bool
  | [] => .ok false
  | .matches _ _ :: _ => .error (.store .misplacedSearch)
  | first :: rest =>
      if first.isTooLong params then
        .error (.store .patternTooLong)
      else if first.compares params row then
        .ok true
      else
        anyHolds params row rest

end Predicate

namespace Filter

/- No row can satisfy the filter. -/
def isNever (filter : Filter) : Bool :=
  filter.table.isNone || filter.strict.contains .never ||
    filter.loose.any fun group =>
      group.all fun predicate => predicate == .never

/- The searches of the predicates that all rows satisfy. -/
def searches (filter : Filter) (params : Params) :
    Contents.Searches :=
  filter.strict.filterMap (Predicate.search? params)

/- Does a row satisfy what the latest aliases completed? -/
def holdsNow
    (filter : Filter)
    (params : Params)
    (before after : List String)
    (row : JoinedRow) : Except Error Bool :=
  (filter.due before after).allM (Predicate.anyHolds params row)

end Filter

------------------------------------------------------------
-- Order
------------------------------------------------------------

namespace Plan

/- The score that a search gives a row. -/
def scoreOf
    (contents : Contents)
    (searches : Contents.Searches)
    (row : JoinedRow)
    (label : String) : Float :=
  match searches.lookup label, row.searches.lookup label with
  | some (.ok search), some found =>
      search.score (contents.placeOf found)
  | _, _ => 0

/- The order of two rows; better ranks come first. -/
def compareBy
    (plan : Plan)
    (score : String → JoinedRow → Float)
    (left right : JoinedRow) : List OrderKey → Ordering
  | [] => .eq
  | key :: rest =>
      let first :=
        match key with
        | .output label descending =>
            match plan.outputNamed? label with
            | some expr =>
                let order :=
                  (expr.eval left).compare (expr.eval right)
                if descending then order.swap else order
            | none => .eq
        | .rank label =>
            let x := score label left
            let y := score label right
            if x > y then .lt else if x < y then .gt else .eq
      first.then (compareBy plan score left right rest)

/- Rows in the order of the plan. -/
def sort
    (plan : Plan)
    (contents : Contents)
    (searches : Contents.Searches)
    (rows : List JoinedRow) : List JoinedRow :=
  if plan.orders.isEmpty then
    rows
  else
    rows.mergeSort fun left right =>
      plan.compareBy (fun label row =>
        scoreOf contents searches row label)
        left right plan.orders != .gt

------------------------------------------------------------
-- Running
------------------------------------------------------------

/-
  Do the early searches let any row through?  A condition
  that they complete is a search in a real alternative.
-/
def opens
    (plan : Plan)
    (contents : Contents)
    (searches : Contents.Searches) :
    List Join → List String → Except Error Bool
  | [], _ => pure true
  | next :: rest, before => do
      if ← contents.anyText searches next.label then
        let after := next.label :: before
        if plan.filter.due before after ≠ [] then
          throw (.store .misplacedSearch)
        plan.opens contents searches rest after
      else
        pure false

/- Join one part after another, unless the row is dropped. -/
def advance
    (plan : Plan)
    (contents : Contents)
    (params : Params)
    (searches : Contents.Searches) :
    List Join → List String → JoinedRow →
      Except Error (Option JoinedRow)
  | [], _, row => pure (some row)
  | next :: rest, before, row => do
      let after := next.label :: before
      match ← contents.joinOne searches row next with
      | none => pure none
      | some row =>
          if ← plan.filter.holdsNow params before after row then
            plan.advance contents params searches rest after row
          else
            pure none

/- Join an item, unless the filter or a join drops it. -/
def joinOf?
    (plan : Plan)
    (contents : Contents)
    (params : Params)
    (searches : Contents.Searches)
    (item : ItemRow) : Except Error (Option JoinedRow) := do
  let early := plan.early.map Join.label
  let before :=
    plan.beforeItems.map Join.label ++ early
  let after := itemAlias :: before
  if plan.filter.table ≠ some item.tableId then
    pure none
  else
    match ← plan.advance contents params searches
      (plan.tied itemAlias ++ plan.beforeItems) early
      ⟨item, [], []⟩ with
    | none => pure none
    | some row =>
        if ← plan.filter.holdsNow params before after row then
          plan.advance contents params searches
            plan.afterItems after row
        else
          pure none

/- The joined rows that satisfy the filter. -/
def matching
    (plan : Plan)
    (contents : Contents)
    (params : Params)
    (searches : Contents.Searches) :
    Except Error (List JoinedRow) := do
  if ← plan.opens contents searches plan.early [] then
    let rows ← contents.items.rows.mapM
      (plan.joinOf? contents params searches)
    pure (rows.filterMap id)
  else
    pure []

/-
  The order in which rows are met that are only counted: by
  the content of keys if comparisons limit it, by the values
  of keys if these alone lead to the items, or else by items.
-/
def compareVisits
    (plan : Plan)
    (left right : JoinedRow) : Ordering :=
  let key (row : JoinedRow) : Cell :=
    Expr.eval row (.value keyAlias .text)
  let number (row : JoinedRow) : Cell :=
    Expr.eval row (.value keyAlias .number)
  if plan.filter.limits keyAlias then
    ((key left).compare (key right)).then
      ((number left).compare (number right))
  else if plan.followsKeys then
    compare left.item.valueId right.item.valueId
  else
    .eq

/- The row that is met first. -/
def firstVisit? (plan : Plan) : List JoinedRow → Option JoinedRow
  | [] => none
  | first :: rest =>
      some (rest.foldl
        (fun best row =>
          if plan.compareVisits row best == .lt then row
          else best)
        first)

/- One row, with the count and the first row's cells. -/
def counted (plan : Plan) (rows : List JoinedRow) : Row :=
  let first := plan.firstVisit? rows
  ⟨plan.outputs.map fun output =>
    if output.1 = .countAll then
      .integer rows.length
    else
      (first.map fun row => output.1.eval row).getD .null⟩

/- The outputs of a row. -/
def row (plan : Plan) (joined : JoinedRow) : Row :=
  ⟨plan.outputs.map fun output => output.1.eval joined⟩

/- The rows that a plan gives for the rows it finds. -/
def results
    (plan : Plan)
    (contents : Contents)
    (searches : Contents.Searches)
    (rows : List JoinedRow) : List Row :=
  if plan.counts then
    [plan.counted rows]
  else
    let sorted := plan.sort contents searches rows
    (match plan.limit with
      | some limit => sorted.take limit
      | none => sorted).map plan.row

/- Run a plan. -/
def run
    (plan : Plan)
    (contents : Contents)
    (params : Params) : Except Error RowSet := do
  plan.prepare
  let searches := plan.filter.searches params
  let rows ←
    if plan.filter.isNever then pure []
    else plan.matching contents params searches
  pure ⟨plan.columns, plan.results contents searches rows⟩

end Plan

end SparseTables
