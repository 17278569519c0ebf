import SparseTables.Proofs.Plan.Joining
import SparseTables.Proofs.Query.Rendering

/-
  This file shows that the row of an item holds its record.

  What a plan takes from the row for a column is the cell of
  the column in the record.

  Main declarations:
    * `Contents.Sound.exists_key`
    * `Contents.Sound.eval_expr`
    * `Contents.Sound.cell_eq_null`
-/

namespace SparseTables

------------------------------------------------------------
-- Cells of values
------------------------------------------------------------

/- The column of a value's own kind holds its content. -/
theorem Value.cell_ofKind
    {value : Value}
    {numeric : Bool}
    (hKind : value.content.isNumeric = numeric) :
    value.cell (.ofKind numeric) = value.content.cell := by
  subst hKind
  unfold Value.cell
  cases value.content <;> rfl

theorem Record.cell_of_not_reserved
    {column : String}
    (hWord : Word.isReserved column = false)
    (record : Record) :
    record.cell column =
      .ofOption (record.metadata.get? column) := by
  have hNot : ∀ word ∈ Word.reserved,
      Word.lower column ≠ word :=
    fun word hMem => Word.lower_ne hWord hMem
  simp only [Word.reserved, List.forall_mem_cons] at hNot
  simp [Record.cell, hNot, hWord]

namespace Contents

variable {contents : Contents} {table : Table}

theorem mem_knownOf_iff
    {columns : List String}
    {column : String}
    {row : Attribute} :
    (column, row) ∈ contents.knownOf table columns ↔
      column ∈ columns ∧ Word.isReserved column = false ∧
        contents.attributeNamed? table.id column =
          some row := by
  unfold knownOf
  rw [List.mem_filterMap]
  constructor
  · intro ⟨other, hMem, hOther⟩
    split at hOther
    · cases hOther
    · rename_i hWord
      rcases Option.map_eq_some_iff.1 hOther with
        ⟨found, hFound, hSame⟩
      cases hSame
      exact ⟨hMem, by simpa using hWord, hFound⟩
  · intro ⟨hMem, hWord, hFound⟩
    exact ⟨column, hMem, by simp [hWord, hFound]⟩

/- The value of an item for an attribute of its table. -/
theorem valueAt_of_attribute
    {tableId itemId : Int}
    {name : String}
    {row : Attribute}
    (hFind : contents.attributeNamed? tableId name =
      some row) :
    contents.valueAt tableId itemId name =
      (contents.slotValue? itemId row.id).map
        Value.content := by
  unfold valueAt slotValue?
  simp only [hFind, Option.bind_eq_bind, Option.bind_some]
  cases contents.slot? itemId row.id with
  | none => rfl
  | some slot =>
      simp only [Option.bind_some]
      cases contents.value? slot.valueId <;> rfl

namespace Sound

/- A value for an attribute is of the attribute's kind. -/
theorem isNumeric_slotValue
    (hSound : contents.Sound)
    {row : Attribute}
    (hRow : row ∈ contents.attributes.rows)
    {itemId : Int}
    {value : Value}
    (hValue : contents.slotValue? itemId row.id =
      some value) :
    value.content.isNumeric = row.numeric := by
  rcases Option.bind_eq_some_iff.1 hValue with
    ⟨slot, hSlot, hFound⟩
  rcases hSound.slot?_eq_some_iff.1 hSlot with
    ⟨hMem, hItem, hAttr⟩
  rcases hSound.slotsFit slot hMem with
    ⟨other, hOther, found, hIn, hOtherId, hFoundId, hKind, -⟩
  have hSame : other = row :=
    hSound.attributes.eq_of_id hOther hRow
      (hOtherId.trans hAttr)
  have hFind := hSound.value?_eq_some_iff.2 ⟨hIn, hFoundId⟩
  rw [hFind] at hFound
  cases hFound
  rw [hKind, hSame]

/- The key of an item is of the kind of its table. -/
theorem exists_key
    (hSound : contents.Sound)
    {item : ItemRow}
    (hItem : item ∈ contents.items.rows)
    (hTable : table ∈ contents.tables.rows)
    (hId : item.tableId = table.id) :
    ∃ value, contents.value? item.valueId = some value ∧
      value.content.isNumeric = table.numeric := by
  rcases hSound.itemsFit item hItem with
    ⟨other, hOther, key, hKey, hOtherId, hKeyId, hKind⟩
  have hSame : other = table :=
    hSound.tables.eq_of_id hOther hTable
      (hOtherId.trans hId)
  exact ⟨key, hSound.value?_eq_some_iff.2 ⟨hKey, hKeyId⟩,
    hSame ▸ hKind⟩

theorem isSome_key
    (hSound : contents.Sound)
    {item : ItemRow}
    (hItem : item ∈ contents.items.rows) :
    (contents.value? item.valueId).isSome := by
  rcases hSound.itemsFit item hItem with
    ⟨-, -, key, hKey, -, hKeyId, -⟩
  rw [hSound.value?_eq_some_iff.2 ⟨hKey, hKeyId⟩]
  rfl

end Sound

end Contents

------------------------------------------------------------
-- Columns
------------------------------------------------------------

namespace Contents

/- The scope of a query on a known table. -/
def scopeOf
    (contents : Contents)
    (query : Select)
    (table : Table) : Scope :=
  query.scope (some table)
    (contents.knownOf table query.referenced)

variable {contents : Contents} {table : Table}
variable {query : Select} {column : String}

theorem planOf_eq
    (hTable : contents.tableNamed? query.source =
      some table) :
    contents.planOf query =
      Plan.build query (some table)
        (contents.knownOf table query.referenced) := by
  simp [planOf, hTable]

/- What is bound is a known attribute. -/
theorem attributeNamed?_of_bound
    {bound : Bound}
    (hBound : bound ∈ (contents.scopeOf query table).bound) :
    Word.isReserved bound.column = false ∧
      contents.attributeNamed? table.id bound.column =
        some bound.known := by
  have hKnown : (bound.column, bound.known) ∈
      contents.knownOf table query.referenced := by
    rw [← Plan.joinAttributes_known
      (Plan.joinKey query (some table) ⟨.empty, []⟩)
      (contents.knownOf table query.referenced)]
    exact List.mem_map_of_mem hBound
  exact (mem_knownOf_iff.1 hKnown).2

/- A known attribute that a query mentions is bound. -/
theorem isSome_find?
    (hColumn : column ∈ query.referenced)
    (hWord : Word.isReserved column = false)
    {row : Attribute}
    (hRow : contents.attributeNamed? table.id column =
      some row) :
    ((contents.scopeOf query table).find? column).isSome := by
  have hKnown : (column, row) ∈
      contents.knownOf table query.referenced :=
    mem_knownOf_iff.2 ⟨hColumn, hWord, hRow⟩
  rw [← Plan.joinAttributes_known
    (Plan.joinKey query (some table) ⟨.empty, []⟩)
    (contents.knownOf table query.referenced)] at hKnown
  rcases List.mem_map.1 hKnown with ⟨bound, hBound, hSame⟩
  rw [Scope.find?, List.find?_isSome]
  exact ⟨bound, hBound, by simp [(Prod.mk.inj hSame).1]⟩

/- The values that a query needs are joined. -/
theorem mem_joins_planOf
    (hTable : contents.tableNamed? query.source = some table)
    {join : Join}
    (hJoin : join ∈ query.keyJoins (some table) ∨
      join ∈ (contents.scopeOf query table).bound.map
        Bound.join) :
    join ∈ (contents.planOf query).joins := by
  rcases Plan.build_renders query (some table)
    (contents.knownOf table query.referenced) with
    ⟨searches, hJoins, -, -⟩
  rw [planOf_eq hTable, hJoins, List.append_assoc,
    List.mem_append, List.mem_append]
  exact hJoin.imp_right .inl

namespace Sound

/- A bound column gives the value of its attribute. -/
theorem eval_bound
    (hSound : contents.Sound)
    (hTable : contents.tableNamed? query.source = some table)
    {item : ItemRow}
    (hItem : item ∈ contents.items.rows)
    (hId : item.tableId = table.id)
    {row : JoinedRow}
    (hRow : (contents.planOf query).Shows contents item row)
    {bound : Bound}
    (hBound : bound ∈ (contents.scopeOf query table).bound) :
    (Expr.value bound.label
        (.ofKind bound.known.numeric)).eval row =
      (contents.recordOf item).cell bound.column := by
  rcases attributeNamed?_of_bound hBound with ⟨hWord, hFind⟩
  have hAttr := (hSound.attributeNamed?_eq_some_iff.1 hFind).1
  have hLookup : row.values.lookup bound.label =
      some (contents.slotValue? item.id bound.known.id) :=
    hRow.values bound.join (mem_joins_planOf hTable
      (.inr (List.mem_map_of_mem hBound))) rfl
  rw [Record.cell_of_not_reserved hWord]
  simp only [Expr.eval, hLookup, recordOf,
    hSound.get?_metadata hItem, hId,
    valueAt_of_attribute hFind, Option.join_some]
  cases hValue :
      contents.slotValue? item.id bound.known.id with
  | none => rfl
  | some value =>
      exact Value.cell_ofKind
        (hSound.isNumeric_slotValue hAttr hValue)

/- The column for keys gives the key. -/
theorem eval_key
    (hSound : contents.Sound)
    (hTable : contents.tableNamed? query.source = some table)
    {item : ItemRow}
    (hItem : item ∈ contents.items.rows)
    (hId : item.tableId = table.id)
    {row : JoinedRow}
    (hRow : (contents.planOf query).Shows contents item row)
    (hColumn : column ∈ query.referenced)
    (hWord : Word.lower column = "value") :
    (Expr.value keyAlias (.ofKind table.numeric)).eval row =
      (contents.recordOf item).cell column := by
  have hKnown := (hSound.tableNamed?_eq_some_iff.1 hTable).1
  rcases hSound.exists_key hItem hKnown hId with
    ⟨key, hKey, hKind⟩
  have hMentioned :
      query.referenced.any Word.isKey = true :=
    List.any_eq_true.2
      ⟨column, hColumn, (Word.isKey_iff column).2 hWord⟩
  have hJoin : Join.key ∈ query.keyJoins (some table) := by
    rw [Select.keyJoins, hMentioned]
    exact List.mem_cons_self
  have hLookup : row.values.lookup keyAlias =
      some (contents.value? item.valueId) :=
    hRow.values .key (mem_joins_planOf hTable (.inl hJoin))
      rfl
  simp only [Expr.eval, hLookup, hKey, Option.join_some,
    Value.cell_ofKind hKind]
  simp [Record.cell, hWord, recordOf, hKey, Cell.ofOption]

/- A column that stands for something gives its cell. -/
theorem eval_expr
    (hSound : contents.Sound)
    (hTable : contents.tableNamed? query.source = some table)
    {item : ItemRow}
    (hItem : item ∈ contents.items.rows)
    (hId : item.tableId = table.id)
    {row : JoinedRow}
    (hRow : (contents.planOf query).Shows contents item row)
    (hColumn : column ∈ query.referenced)
    {expr : Expr}
    (hExpr : (contents.scopeOf query table).expr? column =
      some expr) :
    expr.eval row = (contents.recordOf item).cell column := by
  unfold Scope.expr? at hExpr
  split at hExpr
  · rename_i bound hFind
    rcases Scope.mem_of_find? hFind with ⟨hBound, rfl⟩
    rw [← Option.some.inj hExpr]
    exact hSound.eval_bound hTable hItem hId hRow hBound
  · unfold Scope.pseudo? at hExpr
    simp only [beq_iff_eq] at hExpr
    split at hExpr
    · rename_i hWord
      rw [← Option.some.inj hExpr]
      exact hSound.eval_key hTable hItem hId hRow hColumn
        hWord
    · split_ifs at hExpr with hIdentity hCreated hModified
      · rw [← Option.some.inj hExpr]
        simp [Record.cell, hIdentity, Expr.eval, hRow.same,
          recordOf]
      · rw [← Option.some.inj hExpr]
        simp [Record.cell, hCreated, Expr.eval, hRow.same,
          recordOf]
      · rw [← Option.some.inj hExpr]
        simp [Record.cell, hModified, Expr.eval, hRow.same,
          recordOf]

/- A column that stands for nothing has no cell. -/
theorem cell_eq_null
    (hSound : contents.Sound)
    {item : ItemRow}
    (hItem : item ∈ contents.items.rows)
    (hId : item.tableId = table.id)
    (hColumn : column ∈ query.referenced)
    (hExpr : (contents.scopeOf query table).expr? column =
      none) :
    (contents.recordOf item).cell column = .null := by
  unfold Scope.expr? at hExpr
  split at hExpr
  · cases hExpr
  · rename_i hFind
    by_cases hWord : Word.isReserved column = true
    · unfold Scope.pseudo? at hExpr
      simp only [beq_iff_eq, scopeOf, Select.scope,
        Option.map_some] at hExpr
      split_ifs at hExpr with hValue hIdentity hCreated
        hModified
      simp [Record.cell, hValue, hIdentity, hCreated,
        hModified, hWord]
    · rw [Bool.not_eq_true] at hWord
      have hNone :
          contents.attributeNamed? table.id column =
            none := by
        rw [Option.eq_none_iff_forall_ne_some]
        intro row hRow
        have hSome := isSome_find? hColumn hWord hRow
        simp [hFind] at hSome
      rw [Record.cell_of_not_reserved hWord]
      simp only [recordOf, hSound.get?_metadata hItem, hId]
      simp [valueAt, hNone, Cell.ofOption]

end Sound

end Contents

end SparseTables
