import Mathlib.Data.List.Nodup
import SparseTables.Proofs.Scalar
import SparseTables.Store.Contents

/-
  This file defines when the contents of the store are sound,
  and what follows for finding rows.

  Identities rise within each register up to the last one
  given out, and what must be unique is unique: so much makes
  the contents keyed.  In sound contents references find
  their rows as well, and kinds agree along them.  A slot may
  be left behind by an item that is gone, but never by one
  that is still to come.

  Main declarations:
    * `Register.Ordered`
    * `Contents.Keyed`
    * `Contents.Keyed.tableNamed?_eq_some_iff`
    * `Contents.Keyed.valueOf?_eq_some_iff`
    * `Contents.Sound`
    * `Contents.Sound.empty`
    * `Contents.Sound.table?_eq_some_iff`
    * `Contents.Sound.attributeNamed?_eq_some_iff`
    * `Contents.Sound.valueOf?_eq_some_iff`
    * `Contents.Sound.slot?_eq_some_iff`
-/

namespace SparseTables

------------------------------------------------------------
-- Finding the only row
------------------------------------------------------------

/- A search gives the only row that it can give. -/
theorem find?_eq_some_iff_of_unique
    {ρ : Type}
    {rows : List ρ}
    {fits : ρ → Bool}
    (hUnique : ∀ row ∈ rows, ∀ other ∈ rows,
      fits row → fits other → row = other)
    {row : ρ} :
    rows.find? fits = some row ↔ row ∈ rows ∧ fits row := by
  constructor
  · intro hFind
    exact ⟨List.mem_of_find?_eq_some hFind,
      List.find?_some hFind⟩
  · intro ⟨hMem, hFits⟩
    cases hFind : rows.find? fits with
    | none =>
        exact absurd hFits
          (List.find?_eq_none.1 hFind row hMem)
    | some other =>
        rw [hUnique other (List.mem_of_find?_eq_some hFind)
          row hMem (List.find?_some hFind) hFits]

------------------------------------------------------------
-- Registers
------------------------------------------------------------

/- Add a row that has the next identity. -/
def Register.push
    {ρ : Type}
    (register : Register ρ)
    (row : ρ) : Register ρ :=
  ⟨register.rows ++ [row], register.last + 1⟩

/- Identities rise from row to row, up to the last one. -/
structure Register.Ordered
    {ρ : Type}
    (id : ρ → Int)
    (register : Register ρ) : Prop where
  rising : register.rows.Pairwise fun left right =>
    id left < id right
  bounded : ∀ row ∈ register.rows, id row ≤ register.last

namespace Register.Ordered

variable {ρ : Type} {id : ρ → Int} {register : Register ρ}

theorem empty : (Register.empty : Register ρ).Ordered id :=
  ⟨List.Pairwise.nil, by simp [Register.empty]⟩

/- No two rows have the same identity. -/
theorem nodup (hOrdered : register.Ordered id) :
    (register.rows.map id).Nodup := by
  rw [List.Nodup, List.pairwise_map]
  exact hOrdered.rising.imp fun hLess => Int.ne_of_lt hLess

theorem eq_of_id
    (hOrdered : register.Ordered id)
    {row other : ρ}
    (hRow : row ∈ register.rows)
    (hOther : other ∈ register.rows)
    (hId : id row = id other) :
    row = other :=
  List.inj_on_of_nodup_map hOrdered.nodup hRow hOther hId

/- The row of an identity is found by it. -/
theorem find?_eq_some_iff
    (hOrdered : register.Ordered id)
    {key : Int}
    {row : ρ} :
    (register.rows.find? fun row => id row == key) =
        some row ↔
      row ∈ register.rows ∧ id row = key := by
  rw [find?_eq_some_iff_of_unique]
  · simp
  · intro row hRow other hOther hKey hSame
    simp only [beq_iff_eq] at hKey hSame
    exact hOrdered.eq_of_id hRow hOther
      (hKey.trans hSame.symm)

theorem push
    (hOrdered : register.Ordered id)
    {new : ρ}
    (hNew : id new = register.last + 1) :
    (register.push new).Ordered id := by
  constructor
  · refine List.pairwise_append.2
      ⟨hOrdered.rising, List.pairwise_singleton _ _, ?_⟩
    intro row hRow other hOther
    have hBound := hOrdered.bounded row hRow
    rw [List.mem_singleton.1 hOther, hNew]
    omega
  · intro row hRow
    simp only [Register.push, List.mem_append,
      List.mem_singleton] at hRow ⊢
    rcases hRow with hOld | hSame
    · have hBound := hOrdered.bounded row hOld
      omega
    · have hId : id row = id new := congrArg id hSame
      omega

theorem remove
    (hOrdered : register.Ordered id)
    (doomed : ρ → Bool) :
    (register.remove doomed).Ordered id :=
  ⟨hOrdered.rising.sublist List.filter_sublist,
    fun row hRow =>
      hOrdered.bounded row (List.mem_of_mem_filter hRow)⟩

/- A change that keeps identities keeps their order. -/
theorem map
    (hOrdered : register.Ordered id)
    {change : ρ → ρ}
    (hChange : ∀ row, id (change row) = id row) :
    Register.Ordered id
      { register with rows := register.rows.map change } := by
  constructor
  · refine List.pairwise_map.2 (hOrdered.rising.imp ?_)
    intro left right hLess
    rwa [hChange, hChange]
  · intro row hRow
    rcases List.mem_map.1 hRow with ⟨old, hOld, hSame⟩
    rw [← hSame, hChange]
    exact hOrdered.bounded old hOld

end Register.Ordered

------------------------------------------------------------
-- Keys
------------------------------------------------------------

namespace Contents

/- Rows have identities and keys of their own. -/
structure Keyed (contents : Contents) : Prop where
  tables : contents.tables.Ordered Table.id
  attributes : contents.attributes.Ordered Attribute.id
  values : contents.values.Ordered Value.id
  items : contents.items.Ordered ItemRow.id
  tableNames : (contents.tables.rows.map Table.name).Nodup
  attributeNames :
    (contents.attributes.rows.map fun row =>
      (row.tableId, row.name)).Nodup
  valueContents :
    (contents.values.rows.map Value.content).Nodup
  itemKeys :
    (contents.items.rows.map fun row =>
      (row.tableId, row.valueId)).Nodup
  normalized : ∀ value ∈ contents.values.rows,
    value.content.normalized = value.content

namespace Keyed

variable {contents : Contents}

theorem tableNamed?_eq_some_iff
    (hKeyed : contents.Keyed)
    {name : String}
    {row : Table} :
    contents.tableNamed? name = some row ↔
      row ∈ contents.tables.rows ∧ row.name = name := by
  rw [tableNamed?, find?_eq_some_iff_of_unique]
  · simp
  · intro row hRow other hOther hName hSame
    simp only [beq_iff_eq] at hName hSame
    exact List.inj_on_of_nodup_map hKeyed.tableNames hRow
      hOther (hName.trans hSame.symm)

theorem attributeNamed?_eq_some_iff
    (hKeyed : contents.Keyed)
    {tableId : Int}
    {name : String}
    {row : Attribute} :
    contents.attributeNamed? tableId name = some row ↔
      row ∈ contents.attributes.rows ∧
        row.tableId = tableId ∧ row.name = name := by
  rw [attributeNamed?, find?_eq_some_iff_of_unique]
  · simp
  · intro row hRow other hOther hName hSame
    simp only [Bool.and_eq_true, beq_iff_eq] at hName hSame
    exact List.inj_on_of_nodup_map hKeyed.attributeNames
      hRow hOther
      (by simp [hName.1, hName.2, hSame.1, hSame.2])

theorem valueOf?_eq_some_iff
    (hKeyed : contents.Keyed)
    {content : Scalar}
    {row : Value} :
    contents.valueOf? content = some row ↔
      row ∈ contents.values.rows ∧
        row.content = content.normalized := by
  rw [valueOf?, find?_eq_some_iff_of_unique]
  · constructor
    · intro ⟨hRow, hSame⟩
      rw [Scalar.same_iff_normalized,
        hKeyed.normalized row hRow] at hSame
      exact ⟨hRow, hSame⟩
    · intro ⟨hRow, hSame⟩
      refine ⟨hRow, ?_⟩
      rw [Scalar.same_iff_normalized, hSame,
        Scalar.normalized_normalized]
  · intro row hRow other hOther hSame hSame'
    rw [Scalar.same_iff_normalized] at hSame hSame'
    apply List.inj_on_of_nodup_map hKeyed.valueContents
      hRow hOther
    rw [← hKeyed.normalized row hRow,
      ← hKeyed.normalized other hOther, hSame, hSame']

theorem itemOf?_eq_some_iff
    (hKeyed : contents.Keyed)
    {tableId valueId : Int}
    {row : ItemRow} :
    contents.itemOf? tableId valueId = some row ↔
      row ∈ contents.items.rows ∧
        row.tableId = tableId ∧ row.valueId = valueId := by
  rw [itemOf?, find?_eq_some_iff_of_unique]
  · simp
  · intro row hRow other hOther hKey hSame
    simp only [Bool.and_eq_true, beq_iff_eq] at hKey hSame
    exact List.inj_on_of_nodup_map hKeyed.itemKeys
      hRow hOther
      (by simp [hKey.1, hKey.2, hSame.1, hSame.2])

end Keyed

------------------------------------------------------------
-- Contents
------------------------------------------------------------

/-
  An item has its table and its key, which is of the kind
  that the table's keys have.
-/
def ItemFits (contents : Contents) (item : ItemRow) : Prop :=
  ∃ table ∈ contents.tables.rows,
    ∃ key ∈ contents.values.rows,
      table.id = item.tableId ∧ key.id = item.valueId ∧
        key.content.isNumeric = table.numeric

/-
  A slot has its attribute and its value, which are of one
  kind, and an item has slots for attributes of its own table
  only.
-/
def SlotFits (contents : Contents) (slot : Slot) : Prop :=
  ∃ attr_ ∈ contents.attributes.rows,
    ∃ value ∈ contents.values.rows,
      attr_.id = slot.attributeId ∧ value.id = slot.valueId ∧
        value.content.isNumeric = attr_.numeric ∧
        ∀ item ∈ contents.items.rows,
          item.id = slot.itemId →
            attr_.tableId = item.tableId

/- What holds of the contents after all calls. -/
structure Sound (contents : Contents) : Prop where
  tables : contents.tables.Ordered Table.id
  attributes : contents.attributes.Ordered Attribute.id
  values : contents.values.Ordered Value.id
  items : contents.items.Ordered ItemRow.id
  tableNames : (contents.tables.rows.map Table.name).Nodup
  attributeNames :
    (contents.attributes.rows.map fun row =>
      (row.tableId, row.name)).Nodup
  valueContents :
    (contents.values.rows.map Value.content).Nodup
  itemKeys :
    (contents.items.rows.map fun row =>
      (row.tableId, row.valueId)).Nodup
  slotKeys :
    (contents.slots.map fun slot =>
      (slot.itemId, slot.attributeId)).Nodup
  normalized : ∀ value ∈ contents.values.rows,
    value.content.normalized = value.content
  storable : ∀ value ∈ contents.values.rows,
    value.content.isStorable
  attributeTables : ∀ attr_ ∈ contents.attributes.rows,
    ∃ table ∈ contents.tables.rows,
      table.id = attr_.tableId
  itemsFit : ∀ item ∈ contents.items.rows,
    contents.ItemFits item
  slotsFit : ∀ slot ∈ contents.slots, contents.SlotFits slot
  slotItems : ∀ slot ∈ contents.slots,
    slot.itemId ≤ contents.items.last

theorem Sound.keyed
    {contents : Contents}
    (hSound : contents.Sound) :
    contents.Keyed :=
  { hSound with }

namespace Sound

theorem empty : Contents.Sound .empty := by
  constructor <;> simp [Contents.empty, Register.empty] <;>
    exact Register.Ordered.empty

------------------------------------------------------------
-- Finding rows
------------------------------------------------------------

variable {contents : Contents}

theorem table?_eq_some_iff
    (hSound : contents.Sound)
    {key : Int}
    {row : Table} :
    contents.table? key = some row ↔
      row ∈ contents.tables.rows ∧ row.id = key :=
  hSound.tables.find?_eq_some_iff

theorem attribute?_eq_some_iff
    (hSound : contents.Sound)
    {key : Int}
    {row : Attribute} :
    contents.attribute? key = some row ↔
      row ∈ contents.attributes.rows ∧ row.id = key :=
  hSound.attributes.find?_eq_some_iff

theorem value?_eq_some_iff
    (hSound : contents.Sound)
    {key : Int}
    {row : Value} :
    contents.value? key = some row ↔
      row ∈ contents.values.rows ∧ row.id = key :=
  hSound.values.find?_eq_some_iff

theorem item?_eq_some_iff
    (hSound : contents.Sound)
    {key : Int}
    {row : ItemRow} :
    contents.item? key = some row ↔
      row ∈ contents.items.rows ∧ row.id = key :=
  hSound.items.find?_eq_some_iff

theorem tableNamed?_eq_some_iff
    (hSound : contents.Sound)
    {name : String}
    {row : Table} :
    contents.tableNamed? name = some row ↔
      row ∈ contents.tables.rows ∧ row.name = name :=
  hSound.keyed.tableNamed?_eq_some_iff

theorem attributeNamed?_eq_some_iff
    (hSound : contents.Sound)
    {tableId : Int}
    {name : String}
    {row : Attribute} :
    contents.attributeNamed? tableId name = some row ↔
      row ∈ contents.attributes.rows ∧
        row.tableId = tableId ∧ row.name = name :=
  hSound.keyed.attributeNamed?_eq_some_iff

theorem valueOf?_eq_some_iff
    (hSound : contents.Sound)
    {content : Scalar}
    {row : Value} :
    contents.valueOf? content = some row ↔
      row ∈ contents.values.rows ∧
        row.content = content.normalized :=
  hSound.keyed.valueOf?_eq_some_iff

theorem itemOf?_eq_some_iff
    (hSound : contents.Sound)
    {tableId valueId : Int}
    {row : ItemRow} :
    contents.itemOf? tableId valueId = some row ↔
      row ∈ contents.items.rows ∧
        row.tableId = tableId ∧ row.valueId = valueId :=
  hSound.keyed.itemOf?_eq_some_iff

theorem slot?_eq_some_iff
    (hSound : contents.Sound)
    {itemId attributeId : Int}
    {slot : Slot} :
    contents.slot? itemId attributeId = some slot ↔
      slot ∈ contents.slots ∧ slot.itemId = itemId ∧
        slot.attributeId = attributeId := by
  rw [slot?, find?_eq_some_iff_of_unique]
  · simp
  · intro slot hSlot other hOther hKey hSame
    simp only [Bool.and_eq_true, beq_iff_eq] at hKey hSame
    exact List.inj_on_of_nodup_map hSound.slotKeys
      hSlot hOther
      (by simp [hKey.1, hKey.2, hSame.1, hSame.2])

end Sound

end Contents

end SparseTables
