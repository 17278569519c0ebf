import SparseTables.Proofs.Contents.Changes
import SparseTables.Proofs.Contents.Keyed

/-
  This file describes rows by their keys: what is unique among
  tables, attributes, values and items, and what is found
  under it, an identity and a kind.

  Contents widen as long as nothing is removed from them.
  What is found under a key is found there still.

  Main declarations:
    * `Key`
    * `Entry`
    * `Contents.entriesOf`
    * `Contents.Widens`
    * `Contents.Widens.mem_entriesOf`
    * `Contents.Keyed.entriesOf_eq`
    * `Contents.Keyed.id_eq_iff`
    * `Contents.Adds`
    * `Contents.AddsOnly`
    * `Contents.Knows`
-/

namespace SparseTables

------------------------------------------------------------
-- Keys and entries
------------------------------------------------------------

/- What is unique among the rows of one kind. -/
inductive Key where
  | table (name : String)
  | column (tableId : Int) (name : String)
  | value (content : Scalar)
  | item (tableId valueId : Int)
deriving DecidableEq

/- The kinds of rows that have keys. -/
inductive Key.Dictionary where
  | tables
  | columns
  | values
  | items
deriving DecidableEq

def Key.dictionary : Key → Dictionary
  | table _ => .tables
  | column _ _ => .columns
  | value _ => .values
  | item _ _ => .items

/-
  What is found under a key.  The kind is the one that the
  keys of a table or the values of an attribute have.
-/
structure Entry where
  id : Int
  numeric : Option Bool
deriving DecidableEq

namespace Contents

/- What is found under a key, row by row. -/
def entriesOf (contents : Contents) : Key → List Entry
  | .table name =>
      (contents.tables.rows.filter fun row =>
        row.name == name).map fun row =>
          ⟨row.id, some row.numeric⟩
  | .column tableId name =>
      (contents.attributes.rows.filter fun row =>
        row.tableId == tableId && row.name == name).map
          fun row => ⟨row.id, some row.numeric⟩
  | .value content =>
      (contents.values.rows.filter fun row =>
        row.content == content).map fun row =>
          ⟨row.id, none⟩
  | .item tableId valueId =>
      (contents.items.rows.filter fun row =>
        row.tableId == tableId &&
          row.valueId == valueId).map fun row =>
            ⟨row.id, none⟩

variable {contents : Contents} {entry : Entry}

theorem mem_entriesOf_table_iff {name : String} :
    entry ∈ contents.entriesOf (.table name) ↔
      ∃ row ∈ contents.tables.rows, row.name = name ∧
        ⟨row.id, some row.numeric⟩ = entry := by
  simp [entriesOf, and_assoc]

theorem mem_entriesOf_column_iff
    {tableId : Int}
    {name : String} :
    entry ∈ contents.entriesOf (.column tableId name) ↔
      ∃ row ∈ contents.attributes.rows,
        (row.tableId = tableId ∧ row.name = name) ∧
          ⟨row.id, some row.numeric⟩ = entry := by
  simp [entriesOf, and_assoc]

theorem mem_entriesOf_value_iff {content : Scalar} :
    entry ∈ contents.entriesOf (.value content) ↔
      ∃ row ∈ contents.values.rows,
        row.content = content ∧ ⟨row.id, none⟩ = entry := by
  simp [entriesOf, and_assoc]

theorem mem_entriesOf_item_iff {tableId valueId : Int} :
    entry ∈ contents.entriesOf (.item tableId valueId) ↔
      ∃ row ∈ contents.items.rows,
        (row.tableId = tableId ∧ row.valueId = valueId) ∧
          ⟨row.id, none⟩ = entry := by
  simp [entriesOf, and_assoc]

------------------------------------------------------------
-- Widening
------------------------------------------------------------

/-
  No row is removed from dictionaries or items.  Of an item
  only the time of its last change may differ.
-/
structure Widens (before after : Contents) : Prop where
  retains : before.Retains after
  items : ∀ item ∈ before.items.rows,
    ∃ later ∈ after.items.rows, later.core = item.core

namespace Widens

variable {first second third : Contents}

theorem refl (contents : Contents) :
    contents.Widens contents :=
  ⟨.refl contents, fun item hItem => ⟨item, hItem, rfl⟩⟩

theorem trans
    (hFirst : first.Widens second)
    (hSecond : second.Widens third) :
    first.Widens third where
  retains := hFirst.retains.trans hSecond.retains
  items item hItem := by
    rcases hFirst.items item hItem with
      ⟨middle, hMiddle, hSame⟩
    rcases hSecond.items middle hMiddle with
      ⟨later, hLater, hSameToo⟩
    exact ⟨later, hLater, hSameToo.trans hSame⟩

theorem ofGrows (hGrows : first.Grows second) :
    first.Widens second :=
  ⟨.ofGrows hGrows, fun item hItem =>
    ⟨item, hGrows.items.mem hItem, rfl⟩⟩

/- What is found under a key is found there still. -/
theorem mem_entriesOf
    (hWidens : first.Widens second)
    {key : Key}
    (hEntry : entry ∈ first.entriesOf key) :
    entry ∈ second.entriesOf key := by
  cases key with
  | table name =>
      rw [mem_entriesOf_table_iff] at hEntry ⊢
      rcases hEntry with ⟨row, hRow, hRest⟩
      exact ⟨row, hWidens.retains.tables row hRow, hRest⟩
  | column tableId name =>
      rw [mem_entriesOf_column_iff] at hEntry ⊢
      rcases hEntry with ⟨row, hRow, hRest⟩
      exact ⟨row, hWidens.retains.attributes row hRow, hRest⟩
  | value content =>
      rw [mem_entriesOf_value_iff] at hEntry ⊢
      rcases hEntry with ⟨row, hRow, hRest⟩
      exact ⟨row, hWidens.retains.values row hRow, hRest⟩
  | item tableId valueId =>
      rw [mem_entriesOf_item_iff] at hEntry ⊢
      rcases hEntry with ⟨row, hRow, ⟨rfl, rfl⟩, rfl⟩
      rcases hWidens.items row hRow with ⟨later, hLater, hSame⟩
      simp only [ItemRow.core, Prod.mk.injEq] at hSame
      exact ⟨later, hLater, ⟨hSame.2.1, hSame.2.2.1⟩,
        by rw [hSame.1]⟩

/- Rows are found under their identities still. -/
theorem isSome_table?
    (hWidens : first.Widens second)
    {id : Int}
    (hTable : (first.table? id).isSome) :
    (second.table? id).isSome := by
  simp only [table?, List.find?_isSome] at hTable ⊢
  rcases hTable with ⟨row, hRow, hId⟩
  exact ⟨row, hWidens.retains.tables row hRow, hId⟩

theorem isSome_value?
    (hWidens : first.Widens second)
    {id : Int}
    (hValue : (first.value? id).isSome) :
    (second.value? id).isSome := by
  simp only [value?, List.find?_isSome] at hValue ⊢
  rcases hValue with ⟨row, hRow, hId⟩
  exact ⟨row, hWidens.retains.values row hRow, hId⟩

end Widens

------------------------------------------------------------
-- Keys are unique
------------------------------------------------------------

/- A list without repetitions that can hold one element. -/
theorem eq_singleton_of_unique
    {ρ : Type}
    {rows : List ρ}
    (hNodup : rows.Nodup)
    {row : ρ}
    (hRow : row ∈ rows)
    (hUnique : ∀ other ∈ rows, other = row) :
    rows = [row] := by
  have hAll := List.eq_replicate_iff.2 ⟨rfl, hUnique⟩
  rw [hAll] at hNodup
  have hLength := List.nodup_replicate.1 hNodup
  have hPositive := List.length_pos_of_mem hRow
  rw [hAll, Nat.le_antisymm hLength hPositive]
  rfl

namespace Keyed

/- Rows under one key are one row. -/
theorem entry_unique
    (hKeyed : contents.Keyed)
    {key : Key}
    {found : Entry}
    (hEntry : entry ∈ contents.entriesOf key)
    (hFound : found ∈ contents.entriesOf key) :
    entry = found := by
  cases key with
  | table name =>
      rw [mem_entriesOf_table_iff] at hEntry hFound
      rcases hEntry with ⟨row, hRow, hName, rfl⟩
      rcases hFound with ⟨other, hOther, hSame, rfl⟩
      rw [List.inj_on_of_nodup_map hKeyed.tableNames hRow
        hOther (hName.trans hSame.symm)]
  | column tableId name =>
      rw [mem_entriesOf_column_iff] at hEntry hFound
      rcases hEntry with ⟨row, hRow, ⟨rfl, rfl⟩, rfl⟩
      rcases hFound with ⟨other, hOther, hSame, rfl⟩
      rw [List.inj_on_of_nodup_map hKeyed.attributeNames
        hOther hRow (Prod.ext_iff.2 hSame)]
  | value content =>
      rw [mem_entriesOf_value_iff] at hEntry hFound
      rcases hEntry with ⟨row, hRow, hContent, rfl⟩
      rcases hFound with ⟨other, hOther, hSame, rfl⟩
      rw [List.inj_on_of_nodup_map hKeyed.valueContents hRow
        hOther (hContent.trans hSame.symm)]
  | item tableId valueId =>
      rw [mem_entriesOf_item_iff] at hEntry hFound
      rcases hEntry with ⟨row, hRow, ⟨rfl, rfl⟩, rfl⟩
      rcases hFound with ⟨other, hOther, hSame, rfl⟩
      rw [List.inj_on_of_nodup_map hKeyed.itemKeys hOther
        hRow (Prod.ext_iff.2 hSame)]

/- Rows of one kind under one identity are one row. -/
theorem id_eq_iff
    (hKeyed : contents.Keyed)
    {key other : Key}
    (hSame : key.dictionary = other.dictionary)
    {found : Entry}
    (hEntry : entry ∈ contents.entriesOf key)
    (hFound : found ∈ contents.entriesOf other) :
    entry.id = found.id ↔ key = other := by
  constructor
  swap
  · rintro rfl
    rw [hKeyed.entry_unique hEntry hFound]
  intro hId
  cases key <;> cases other <;>
    simp only [Key.dictionary, reduceCtorEq] at hSame
  case table.table name name' =>
    rw [mem_entriesOf_table_iff] at hEntry hFound
    rcases hEntry with ⟨row, hRow, rfl, rfl⟩
    rcases hFound with ⟨row', hRow', rfl, rfl⟩
    rw [hKeyed.tables.eq_of_id hRow hRow' hId]
  case column.column tableId name tableId' name' =>
    rw [mem_entriesOf_column_iff] at hEntry hFound
    rcases hEntry with ⟨row, hRow, ⟨rfl, rfl⟩, rfl⟩
    rcases hFound with ⟨row', hRow', ⟨rfl, rfl⟩, rfl⟩
    rw [hKeyed.attributes.eq_of_id hRow hRow' hId]
  case value.value content content' =>
    rw [mem_entriesOf_value_iff] at hEntry hFound
    rcases hEntry with ⟨row, hRow, rfl, rfl⟩
    rcases hFound with ⟨row', hRow', rfl, rfl⟩
    rw [hKeyed.values.eq_of_id hRow hRow' hId]
  case item.item tableId valueId tableId' valueId' =>
    rw [mem_entriesOf_item_iff] at hEntry hFound
    rcases hEntry with ⟨row, hRow, ⟨rfl, rfl⟩, rfl⟩
    rcases hFound with ⟨row', hRow', ⟨rfl, rfl⟩, rfl⟩
    rw [hKeyed.items.eq_of_id hRow hRow' hId]

/- Identities rise, so no row comes twice. -/
theorem nodup_entriesOf
    (hKeyed : contents.Keyed)
    (key : Key) :
    (contents.entriesOf key).Nodup := by
  have hNodup
      {ρ : Type}
      {register : Register ρ}
      {id : ρ → Int}
      (hOrdered : register.Ordered id)
      (fits : ρ → Bool)
      (kind : ρ → Option Bool) :
      ((register.rows.filter fits).map fun row =>
        (⟨id row, kind row⟩ : Entry)).Nodup := by
    refine List.Nodup.of_map Entry.id ?_
    rw [List.map_map]
    exact hOrdered.nodup.sublist
      (List.filter_sublist.map id)
  cases key with
  | table name => exact hNodup hKeyed.tables _ _
  | column tableId name => exact hNodup hKeyed.attributes _ _
  | value content => exact hNodup hKeyed.values _ _
  | item tableId valueId => exact hNodup hKeyed.items _ _

/- There is exactly one row where there is one. -/
theorem entriesOf_eq
    (hKeyed : contents.Keyed)
    {key : Key}
    (hEntry : entry ∈ contents.entriesOf key) :
    contents.entriesOf key = [entry] :=
  eq_singleton_of_unique (hKeyed.nodup_entriesOf key) hEntry
    fun _ hOther => hKeyed.entry_unique hOther hEntry

end Keyed

------------------------------------------------------------
-- New rows
------------------------------------------------------------

/-
  Nothing is removed, and what is new, if anything, is under
  one key and of one kind.
-/
structure Adds
    (key : Option Key)
    (kind : Option Bool)
    (before after : Contents) : Prop where
  widens : before.Widens after
  new : ∀ other, ∀ found ∈ after.entriesOf other,
    found ∈ before.entriesOf other ∨
      key = some other ∧ found.numeric = kind

theorem Adds.refl
    (key : Option Key)
    (kind : Option Bool)
    (contents : Contents) :
    contents.Adds key kind contents :=
  ⟨.refl contents, fun _ _ hFound => Or.inl hFound⟩

/- Nothing is removed, and what is new is what may be. -/
structure AddsOnly
    (may : Key → Option Bool → Prop)
    (before after : Contents) : Prop where
  widens : before.Widens after
  new : ∀ key, ∀ found ∈ after.entriesOf key,
    found ∈ before.entriesOf key ∨ may key found.numeric

section AddsOnly

variable {may may' : Key → Option Bool → Prop}
variable {first second third : Contents}

theorem AddsOnly.refl
    (may : Key → Option Bool → Prop)
    (contents : Contents) :
    contents.AddsOnly may contents :=
  ⟨.refl contents, fun _ _ hFound => Or.inl hFound⟩

theorem AddsOnly.trans
    (hFirst : first.AddsOnly may second)
    (hSecond : second.AddsOnly may third) :
    first.AddsOnly may third where
  widens := hFirst.widens.trans hSecond.widens
  new key found hFound := by
    rcases hSecond.new key found hFound with hOld | hNew
    · exact hFirst.new key found hOld
    · exact Or.inr hNew

theorem AddsOnly.mono
    (hAdds : first.AddsOnly may second)
    (hMay : ∀ key kind, may key kind → may' key kind) :
    first.AddsOnly may' second :=
  ⟨hAdds.widens, fun key found hFound =>
    (hAdds.new key found hFound).imp_right (hMay key _)⟩

/- What is new under one key may be. -/
theorem Adds.only
    {key : Key}
    {kind : Option Bool}
    (hAdds : first.Adds (some key) kind second)
    (hMay : may key kind) :
    first.AddsOnly may second := by
  refine ⟨hAdds.widens, fun other found hFound => ?_⟩
  refine (hAdds.new other found hFound).imp_right ?_
  rintro ⟨hKey, hKind⟩
  cases hKey
  rwa [hKind]

end AddsOnly

variable {after : Contents}

theorem adds_addTable
    {name : String}
    {numeric : Bool}
    {id : Int}
    (hAdd : contents.addTable name numeric =
      .ok (id, after)) :
    contents.Adds (some (.table name)) (some numeric) after ∧
      ⟨id, some numeric⟩ ∈ after.entriesOf (.table name) := by
  have hWidens := Widens.ofGrows (addTable_grows hAdd)
  rcases addTable_eq_ok hAdd with ⟨-, -, rfl⟩
  refine ⟨⟨hWidens, fun other found hFound => ?_⟩,
    mem_entriesOf_table_iff.2
      ⟨_, mem_push_iff.2 (Or.inr rfl), rfl, rfl⟩⟩
  cases other with
  | table =>
      rw [mem_entriesOf_table_iff] at hFound ⊢
      rcases hFound with ⟨row, hRow, rfl, rfl⟩
      rcases mem_push_iff.1 hRow with hOld | rfl
      · exact Or.inl ⟨row, hOld, rfl, rfl⟩
      · exact Or.inr ⟨rfl, rfl⟩
  | column | value | item => exact Or.inl hFound

theorem adds_addAttribute
    {tableId : Int}
    {name : String}
    {numeric : Bool}
    {id : Int}
    (hAdd : contents.addAttribute tableId name numeric =
      .ok (id, after)) :
    contents.Adds (some (.column tableId name))
        (some numeric) after ∧
      ⟨id, some numeric⟩ ∈
        after.entriesOf (.column tableId name) := by
  have hWidens := Widens.ofGrows (addAttribute_grows hAdd)
  rcases addAttribute_eq_ok hAdd with ⟨-, -, -, rfl⟩
  refine ⟨⟨hWidens, fun other found hFound => ?_⟩,
    mem_entriesOf_column_iff.2
      ⟨_, mem_push_iff.2 (Or.inr rfl), ⟨rfl, rfl⟩, rfl⟩⟩
  cases other with
  | column =>
      rw [mem_entriesOf_column_iff] at hFound ⊢
      rcases hFound with ⟨row, hRow, ⟨rfl, rfl⟩, rfl⟩
      rcases mem_push_iff.1 hRow with hOld | rfl
      · exact Or.inl ⟨row, hOld, ⟨rfl, rfl⟩, rfl⟩
      · exact Or.inr ⟨rfl, rfl⟩
  | table | value | item => exact Or.inl hFound

theorem adds_addValue
    {content : Scalar}
    {id : Int}
    (hAdd : contents.addValue content = .ok (id, after)) :
    contents.Adds (some (.value content.normalized)) none
        after ∧
      ⟨id, none⟩ ∈
        after.entriesOf (.value content.normalized) := by
  have hWidens := Widens.ofGrows (addValue_grows hAdd)
  rcases addValue_eq_ok hAdd with ⟨-, -, rfl⟩
  refine ⟨⟨hWidens, fun other found hFound => ?_⟩,
    mem_entriesOf_value_iff.2
      ⟨_, mem_push_iff.2 (Or.inr rfl), rfl, rfl⟩⟩
  cases other with
  | value =>
      rw [mem_entriesOf_value_iff] at hFound ⊢
      rcases hFound with ⟨row, hRow, rfl, rfl⟩
      rcases mem_push_iff.1 hRow with hOld | rfl
      · exact Or.inl ⟨row, hOld, rfl, rfl⟩
      · exact Or.inr ⟨rfl, rfl⟩
  | table | column | item => exact Or.inl hFound

theorem adds_addItem
    {tableId valueId : Int}
    {now : Cell}
    {id : Int}
    (hAdd : contents.addItem tableId valueId now =
      .ok (id, after)) :
    contents.Adds (some (.item tableId valueId)) none after ∧
      ⟨id, none⟩ ∈
        after.entriesOf (.item tableId valueId) := by
  have hWidens := Widens.ofGrows (addItem_grows hAdd)
  rcases addItem_eq_ok hAdd with ⟨-, -, rfl⟩
  refine ⟨⟨hWidens, fun other found hFound => ?_⟩,
    mem_entriesOf_item_iff.2
      ⟨_, mem_push_iff.2 (Or.inr rfl), ⟨rfl, rfl⟩, rfl⟩⟩
  cases other with
  | item =>
      rw [mem_entriesOf_item_iff] at hFound ⊢
      rcases hFound with ⟨row, hRow, ⟨rfl, rfl⟩, rfl⟩
      rcases mem_push_iff.1 hRow with hOld | rfl
      · exact Or.inl ⟨row, hOld, ⟨rfl, rfl⟩, rfl⟩
      · exact Or.inr ⟨rfl, rfl⟩
  | table | column | value => exact Or.inl hFound

------------------------------------------------------------
-- Known keys
------------------------------------------------------------

/- There is a row under a key. -/
def Knows (contents : Contents) (key : Key) : Prop :=
  ∃ entry, entry ∈ contents.entriesOf key

theorem Widens.knows
    (hWidens : contents.Widens after)
    {key : Key}
    (hKnows : contents.Knows key) :
    after.Knows key := by
  rcases hKnows with ⟨entry, hEntry⟩
  exact ⟨entry, hWidens.mem_entriesOf hEntry⟩

namespace Keyed

theorem knows_table_iff
    (hKeyed : contents.Keyed)
    {name : String} :
    contents.Knows (.table name) ↔
      ∃ row, contents.tableNamed? name = some row := by
  simp only [Knows, mem_entriesOf_table_iff,
    hKeyed.tableNamed?_eq_some_iff]
  constructor
  · rintro ⟨_, row, hRow, hName, -⟩
    exact ⟨row, hRow, hName⟩
  · rintro ⟨row, hRow, hName⟩
    exact ⟨_, row, hRow, hName, rfl⟩

theorem knows_column_iff
    (hKeyed : contents.Keyed)
    {tableId : Int}
    {name : String} :
    contents.Knows (.column tableId name) ↔
      ∃ row,
        contents.attributeNamed? tableId name = some row := by
  simp only [Knows, mem_entriesOf_column_iff,
    hKeyed.attributeNamed?_eq_some_iff]
  constructor
  · rintro ⟨_, row, hRow, hKey, -⟩
    exact ⟨row, hRow, hKey⟩
  · rintro ⟨row, hRow, hKey⟩
    exact ⟨_, row, hRow, hKey, rfl⟩

theorem knows_value_iff
    (hKeyed : contents.Keyed)
    {content : Scalar} :
    contents.Knows (.value content.normalized) ↔
      ∃ row, contents.valueOf? content = some row := by
  simp only [Knows, mem_entriesOf_value_iff,
    hKeyed.valueOf?_eq_some_iff]
  constructor
  · rintro ⟨_, row, hRow, hContent, -⟩
    exact ⟨row, hRow, hContent⟩
  · rintro ⟨row, hRow, hContent⟩
    exact ⟨_, row, hRow, hContent, rfl⟩

theorem knows_item_iff
    (hKeyed : contents.Keyed)
    {tableId valueId : Int} :
    contents.Knows (.item tableId valueId) ↔
      ∃ row, contents.itemOf? tableId valueId = some row := by
  simp only [Knows, mem_entriesOf_item_iff,
    hKeyed.itemOf?_eq_some_iff]
  constructor
  · rintro ⟨_, row, hRow, hKey, -⟩
    exact ⟨row, hRow, hKey⟩
  · rintro ⟨row, hRow, hKey⟩
    exact ⟨_, row, hRow, hKey, rfl⟩

/-
  A row whose references are there is refused only if its key
  is known; that may be tried again.
-/
theorem knows_of_addTable
    (hKeyed : contents.Keyed)
    {name : String}
    {numeric : Bool}
    {error : Error}
    (hError : contents.addTable name numeric = .error error) :
    error.isRetryable ∧ contents.Knows (.table name) := by
  unfold Contents.addTable at hError
  split at hError
  · rename_i hTaken
    cases hError
    exact ⟨rfl, hKeyed.knows_table_iff.2
      (Option.isSome_iff_exists.1 hTaken)⟩
  · cases hError

theorem knows_of_addAttribute
    (hKeyed : contents.Keyed)
    {tableId : Int}
    (hTable : (contents.table? tableId).isSome)
    {name : String}
    {numeric : Bool}
    {error : Error}
    (hError : contents.addAttribute tableId name numeric =
      .error error) :
    error.isRetryable ∧
      contents.Knows (.column tableId name) := by
  unfold Contents.addAttribute at hError
  split at hError
  · rename_i hTaken
    cases hError
    exact ⟨rfl, hKeyed.knows_column_iff.2
      (Option.isSome_iff_exists.1 hTaken)⟩
  · rcases Option.isSome_iff_exists.1 hTable with ⟨row, hRow⟩
    rw [hRow] at hError
    cases hError

theorem knows_of_addValue
    (hKeyed : contents.Keyed)
    {content : Scalar}
    {error : Error}
    (hError : contents.addValue content = .error error) :
    error.isRetryable ∧
      contents.Knows (.value content.normalized) := by
  unfold Contents.addValue at hError
  split at hError
  · rename_i hTaken
    cases hError
    exact ⟨rfl, hKeyed.knows_value_iff.2
      (Option.isSome_iff_exists.1 hTaken)⟩
  · cases hError

theorem knows_of_addItem
    (hKeyed : contents.Keyed)
    {tableId valueId : Int}
    (hTable : (contents.table? tableId).isSome)
    (hValue : (contents.value? valueId).isSome)
    {now : Cell}
    {error : Error}
    (hError : contents.addItem tableId valueId now =
      .error error) :
    error.isRetryable ∧
      contents.Knows (.item tableId valueId) := by
  unfold Contents.addItem at hError
  split at hError
  · rename_i hTaken
    cases hError
    exact ⟨rfl, hKeyed.knows_item_iff.2
      (Option.isSome_iff_exists.1 hTaken)⟩
  · rcases Option.isSome_iff_exists.1 hTable with ⟨row, hRow⟩
    rcases Option.isSome_iff_exists.1 hValue with ⟨key, hKey⟩
    rw [hRow, hKey] at hError
    cases hError

end Keyed

end Contents

end SparseTables
