import SparseTables.Proofs.Query.Compiling
import SparseTables.Proofs.Query.Statements

/-
  This file shows which queries that are read from texts pass
  the check before they are compiled.

  A text is checked token by token when it is read, and the
  query is checked once more, with its operators in small
  letters and its limit as a number.  The second check admits
  all that the first one did, and adds only that the columns
  which order the rows are selected.

  Main declarations:
    * `Select.Proper`
    * `Select.Proper.check_eq`
    * `Select.check_filter_bind_iff`
    * `QueryPhrase.proper_query`
    * `Select.check_of_read`
-/

namespace SparseTables

------------------------------------------------------------
-- Single checks
------------------------------------------------------------

theorem Word.isEmpty_of_isWord
    {name : String}
    (hWord : isWord name = true) :
    name.isEmpty = false := by
  rw [← Bool.not_eq_true, String.isEmpty_iff]
  rintro rfl
  exact absurd hWord (by decide)

/- In small letters, an operator is an operator still. -/
theorem Word.isOperator_lower
    {op : String}
    (hOperator : isOperator op = true) :
    isOperator (lower op) = true := by
  rw [isOperator, List.contains_iff_mem] at hOperator
  rw [isOperator]
  generalize lower op = small at hOperator
  revert small
  decide +kernel

/- A criterion whose parts are as they have to be. -/
def Criterion.Proper (part : Criterion) : Prop :=
  Word.isWord part.name = true ∧
    Word.isOperator part.op = true ∧
    Word.isParameter part.param = true

theorem Criterion.Proper.check
    {part : Criterion}
    (hProper : part.Proper)
    (statement : String) :
    Check.criterion part statement = .ok () := by
  rcases hProper with ⟨hName, hOp, hParam⟩
  simp [Check.criterion, Check.column, Check.operator,
    Check.parameter, Check.that, hName, hOp, hParam,
    bind, Except.bind]

------------------------------------------------------------
-- Checks of queries
------------------------------------------------------------

namespace Select

/- Everything but the orders is as it has to be. -/
structure Proper (query : Select) : Prop where
  source : Word.isWord query.source = true
  some_column : query.columns ≠ []
  columns : ∀ name ∈ query.columns, Word.isWord name = true
  limit : Bounds.isSigned64 query.limit = true
  criteria : ∀ part ∈ query.criteria, part.Proper

/- The rows are ordered by columns that are selected. -/
def OrdersSelected (query : Select) : Prop :=
  ∀ order ∈ query.orders, order.field ∈ query.columns

/- The check of a column to order by. -/
def checkOrder
    (query : Select)
    (order : Order) : Except Error Unit :=
  Check.that (query.columns.contains order.field)
    (.orderNotSelected order.field)

variable {query : Select}

theorem checkOrder_eq_ok_iff {order : Order} :
    query.checkOrder order = .ok () ↔
      order.field ∈ query.columns := by
  rw [checkOrder, Check.that_eq_ok_iff, List.contains_iff_mem]

/- Only the orders are left to be refused. -/
theorem Proper.check_eq (hProper : query.Proper) :
    query.check = query.orders.forM query.checkOrder := by
  have hSource : query.source.isEmpty = false :=
    Word.isEmpty_of_isWord hProper.source
  have hSome : query.columns.isEmpty = false := by
    simpa using hProper.some_column
  have hColumns : query.columns.forM
      (fun name => Check.column name "SELECT") = .ok () :=
    Except.forM_eq_ok_iff.2 fun name hMem =>
      Check.that_eq_ok_iff.2 (hProper.columns name hMem)
  have hCriteria : query.criteria.forM
      (fun part => Check.criterion part "WHERE") = .ok () :=
    Except.forM_eq_ok_iff.2 fun part hMem =>
      (hProper.criteria part hMem).check "WHERE"
  have hLast : query.check =
      query.orders.forM query.checkOrder >>= fun _ =>
        query.criteria.forM
          fun part => Check.criterion part "WHERE" := by
    unfold check
    rw [hColumns]
    simp only [Check.table, Check.that, hSource, hSome,
      hProper.source, hProper.limit, Bool.not_false, if_true]
    rfl
  rw [hLast, hCriteria]
  cases query.orders.forM query.checkOrder <;> rfl

theorem Proper.check_eq_ok_iff (hProper : query.Proper) :
    query.check = .ok () ↔ query.OrdersSelected := by
  rw [hProper.check_eq, Except.forM_eq_ok_iff]
  simp only [checkOrder_eq_ok_iff, OrdersSelected]

/- The first order by a column that is not selected. -/
def FirstUnselected (query : Select) (order : Order) : Prop :=
  ∃ before after,
    query.orders = before ++ order :: after ∧
      (∀ earlier ∈ before, earlier.field ∈ query.columns) ∧
      order.field ∉ query.columns

theorem exists_firstUnselected
    (hOrders : ¬query.OrdersSelected) :
    ∃ order, query.FirstUnselected order := by
  have hSome : (query.orders.find? fun order =>
      !query.columns.contains order.field).isSome := by
    rw [List.find?_isSome]
    simpa [OrdersSelected] using hOrders
  obtain ⟨order, hFirst⟩ := Option.isSome_iff_exists.1 hSome
  rw [List.find?_eq_some_iff_append] at hFirst
  obtain ⟨hOrder, before, after, hSplit, hBefore⟩ := hFirst
  exact ⟨order, before, after, hSplit,
    by simpa using hBefore, by simpa using hOrder⟩

theorem Proper.check_eq_error_iff
    (hProper : query.Proper)
    {error : Error} :
    query.check = .error error ↔
      ∃ order, query.FirstUnselected order ∧
        error = .validation (.orderNotSelected order.field) := by
  have hFails {order : Order}
      (hFirst : query.FirstUnselected order) :
      query.check =
        .error (.validation (.orderNotSelected order.field)) := by
    obtain ⟨before, after, hOrders, hBefore, hOrder⟩ := hFirst
    rw [hProper.check_eq, hOrders]
    refine Except.forM_eq_error (fun earlier hMem =>
      checkOrder_eq_ok_iff.2 (hBefore earlier hMem)) ?_
    have hNot : query.columns.contains order.field = false := by
      simpa using hOrder
    rw [checkOrder, hNot]
    rfl
  constructor
  · intro hError
    have hOrders : ¬query.OrdersSelected := by
      rw [← hProper.check_eq_ok_iff, hError]
      exact nofun
    obtain ⟨order, hFirst⟩ := exists_firstUnselected hOrders
    rw [hFails hFirst] at hError
    cases hError
    exact ⟨order, hFirst, rfl⟩
  · rintro ⟨order, hFirst, rfl⟩
    exact hFails hFirst

/- An added criterion is one more to be checked. -/
theorem mem_criteria_filter
    (query : Select)
    (added part : Criterion) :
    part ∈ (query.filter added).criteria ↔
      part ∈ query.criteria ∨ part = added := by
  change part ∈ (addToLast added query.groups).flatMap
      Group.criteria ↔
    part ∈ query.groups.flatMap Group.criteria ∨ part = added
  induction query.groups with
  | nil => simp [addToLast]
  | cons group rest ih =>
      cases rest with
      | nil => simp [addToLast]
      | cons next rest =>
          have hStep : addToLast added (group :: next :: rest) =
              group :: addToLast added (next :: rest) :=
            rfl
          simp only [hStep, List.flatMap_cons, List.mem_append,
            or_assoc] at ih ⊢
          rw [ih]

/- An accepted query takes any criterion that is accepted. -/
theorem check_filter_bind_iff
    (hCheck : query.check = .ok ())
    (added : Criterion)
    (name : String)
    (value : Scalar) :
    ((query.filter added).bind name value).check = .ok () ↔
      Check.criterion added "WHERE" = .ok () := by
  have hMem (part : Criterion) :
      part ∈ ((query.filter added).bind name value).criteria ↔
        part ∈ query.criteria ∨ part = added :=
    query.mem_criteria_filter added part
  unfold check at hCheck ⊢
  simp only [Except.then_eq_ok_iff, Except.forM_eq_ok_iff]
    at hCheck ⊢
  rcases hCheck with
    ⟨hSource, hSome, hTable, hLimit, hColumns, hOrders, hParts⟩
  constructor
  · rintro ⟨-, -, -, -, -, -, hAll⟩
    exact hAll added ((hMem added).2 (.inr rfl))
  · intro hAdded
    refine ⟨hSource, hSome, hTable, hLimit, hColumns, hOrders,
      fun part hPart => ?_⟩
    rcases (hMem part).1 hPart with hOld | rfl
    · exact hParts part hOld
    · exact hAdded

end Select

------------------------------------------------------------
-- Queries that are read
------------------------------------------------------------

namespace QueryPhrase

theorem isSigned64_query
    {phrase : QueryPhrase}
    (hValid : ∀ part ∈ phrase.parts, part.Valid) :
    Bounds.isSigned64 phrase.query.limit = true := by
  have hLimit := (means_query hValid).limit
  cases hSome : phrase.limit with
  | none =>
      rw [hSome] at hLimit
      rw [hLimit]
      decide
  | some text =>
      rw [hSome] at hLimit
      obtain ⟨_, _, -, -, -, -, -, hBound⟩ := hLimit
      exact decide_eq_true (by unfold Bounds.signed64; omega)

theorem parts_of_criterion
    {phrase : QueryPhrase}
    {written : Criterion}
    {part : Part}
    (hWritten : written ∈ phrase.criteria.elim [] Series.toList)
    (hPart : part ∈ written.parts) :
    part ∈ phrase.parts := by
  unfold parts
  refine List.mem_append_right _ (List.mem_cons_of_mem _
    (List.mem_append_left _ ?_))
  cases hCriteria : phrase.criteria with
  | none =>
      rw [hCriteria] at hWritten
      cases hWritten
  | some criteria =>
      rw [hCriteria] at hWritten
      exact List.mem_flatMap.2 ⟨written, hWritten, hPart⟩

/- What is read is as it has to be, but for its orders. -/
theorem proper_query
    {phrase : QueryPhrase}
    (hValid : ∀ part ∈ phrase.parts, part.Valid) :
    phrase.query.Proper where
  source := hValid (.source phrase.source) (by simp [parts])
  some_column := by simp [query]
  columns := by
    intro name hMem
    exact hValid (.column name)
      (List.mem_append_left _ (List.mem_map_of_mem hMem))
  limit := isSigned64_query hValid
  criteria := by
    intro part hMem
    rw [criteria_query, List.mem_map] at hMem
    obtain ⟨written, hWritten, rfl⟩ := hMem
    have hParts : ∀ part ∈ written.parts, part.Valid :=
      fun part hPart =>
        hValid part (parts_of_criterion hWritten hPart)
    simp only [Criterion.parts, List.forall_mem_cons] at hParts
    exact ⟨hParts.1, Word.isOperator_lower hParts.2.1,
      hParts.2.2.1⟩

end QueryPhrase

namespace Select

/-
  A query that was read passes the check if and only if the
  columns that order its rows are selected.  Otherwise the
  first that is not selected is reported, and with any other
  orders by selected columns the query would pass.
-/
theorem check_of_read
    {text : String}
    {query : Select}
    (hRead : read text = .ok query) :
    (query.check = .ok () ↔
        ∀ order ∈ query.orders, order.field ∈ query.columns) ∧
      (∀ error, query.check = .error error ↔
        ∃ order, query.FirstUnselected order ∧
          error =
            .validation (.orderNotSelected order.field)) ∧
      ∀ orders : List Order,
        (∀ order ∈ orders, order.field ∈ query.columns) →
          ({ query with orders := orders } : Select).check =
            .ok () := by
  obtain ⟨phrase, -, hValid, rfl⟩ :=
    exists_phrase_of_read hRead
  have hProper := QueryPhrase.proper_query hValid
  refine ⟨hProper.check_eq_ok_iff,
    fun _ => hProper.check_eq_error_iff, ?_⟩
  intro orders hOrders
  have hOther :
      ({ phrase.query with orders := orders } : Select).Proper :=
    { hProper with }
  exact hOther.check_eq_ok_iff.2 hOrders

/-
  The greatest limit, and an operator that was spelled with a
  Kelvin sign; but the letter case of `b` is another one.
-/
def misordered : Select where
  columns := ["B", "value"]
  source := "t"
  groups := [⟨.all, [⟨"B", "like", "@p"⟩]⟩]
  orders := [⟨"B", true⟩, ⟨"b", false⟩]
  limit := 9223372036854775807
  params := .empty

def misorderedText : String :=
  "select B , value from t where B li\u212AE @p " ++
    "order by B desc , b limit +9223372036854775807"

theorem check_of_read_misordered :
    read misorderedText = .ok misordered ∧
      misordered.check =
        .error (.validation (.orderNotSelected "b")) ∧
      ({ misordered with orders := [] } : Select).check =
        .ok () := by
  have hRead : read misorderedText = .ok misordered := by
    decide +kernel
  rcases check_of_read hRead with ⟨-, hFails, hOthers⟩
  refine ⟨hRead, (hFails _).2 ⟨⟨"b", false⟩, ?_, rfl⟩,
    hOthers [] (List.forall_mem_nil _)⟩
  exact ⟨[⟨"B", true⟩], [], rfl, by decide, by decide⟩

end Select

end SparseTables
