import SparseTables.Exchange
import SparseTables.Proofs.Contents.Changes
import SparseTables.Proofs.NameMap

/-
  This file defines what the contents say about items: the
  attributes of an item by name.

  Main declarations:
    * `Contents.metadata`
    * `Contents.valueAt`
    * `Contents.Sound.get?_metadata`
    * `Contents.itemIn?`
    * `Contents.metadataIn`
    * `Contents.Keeps`
    * `Contents.Sound.metadata_grows`
    * `Contents.Sound.metadata_set`
    * `Contents.Sound.metadata_erase`
-/

namespace SparseTables

/- The positive zero stands for both zeros. -/
def NameMap.normalized (metadata : Metadata) : Metadata :=
  metadata.map Scalar.normalized

namespace Contents

/- The name and the content that a slot refers to. -/
def named? (contents : Contents) (slot : Slot) :
    Option (String × Scalar) := do
  let attr_ ← contents.attribute? slot.attributeId
  let value ← contents.value? slot.valueId
  pure (attr_.name, value.content)

/- The attributes of an item. -/
def metadata (contents : Contents) (itemId : Int) :
    Metadata :=
  .ofList ((contents.slotsOf itemId).filterMap
    contents.named?)

/- The value of an item for an attribute of a table. -/
def valueAt
    (contents : Contents)
    (tableId itemId : Int)
    (name : String) : Option Scalar := do
  let attr_ ← contents.attributeNamed? tableId name
  let slot ← contents.slot? itemId attr_.id
  let value ← contents.value? slot.valueId
  pure value.content

variable {contents : Contents}

theorem mem_slotsOf_iff
    {itemId : Int}
    {slot : Slot} :
    slot ∈ contents.slotsOf itemId ↔
      slot ∈ contents.slots ∧ slot.itemId = itemId := by
  simp [slotsOf]

namespace Sound

------------------------------------------------------------
-- Entries
------------------------------------------------------------

theorem named?_eq_some_iff
    (hSound : contents.Sound)
    {slot : Slot}
    {name : String}
    {content : Scalar} :
    contents.named? slot = some (name, content) ↔
      ∃ attr_ ∈ contents.attributes.rows,
        ∃ value ∈ contents.values.rows,
          attr_.id = slot.attributeId ∧
            value.id = slot.valueId ∧
            attr_.name = name ∧ value.content = content := by
  simp only [named?, Option.bind_eq_bind,
    Option.bind_eq_some_iff, Option.pure_def,
    Option.some.injEq, Prod.mk.injEq,
    hSound.attribute?_eq_some_iff, hSound.value?_eq_some_iff]
  constructor
  · intro hParts
    rcases hParts with
      ⟨attr_, ⟨hAttr, hAttrId⟩, value, ⟨hValue, hValueId⟩,
        hName, hContent⟩
    exact ⟨attr_, hAttr, value, hValue, hAttrId, hValueId,
      hName, hContent⟩
  · intro hParts
    rcases hParts with
      ⟨attr_, hAttr, value, hValue, hAttrId, hValueId, hName,
        hContent⟩
    exact ⟨attr_, ⟨hAttr, hAttrId⟩, value,
      ⟨hValue, hValueId⟩, hName, hContent⟩

theorem valueAt_eq_some_iff
    (hSound : contents.Sound)
    {tableId itemId : Int}
    {name : String}
    {content : Scalar} :
    contents.valueAt tableId itemId name = some content ↔
      ∃ attr_ ∈ contents.attributes.rows,
        ∃ slot ∈ contents.slots,
          ∃ value ∈ contents.values.rows,
            attr_.tableId = tableId ∧ attr_.name = name ∧
              slot.itemId = itemId ∧
              slot.attributeId = attr_.id ∧
              value.id = slot.valueId ∧
              value.content = content := by
  simp only [valueAt, Option.bind_eq_bind,
    Option.bind_eq_some_iff, Option.pure_def,
    Option.some.injEq, hSound.attributeNamed?_eq_some_iff,
    hSound.slot?_eq_some_iff, hSound.value?_eq_some_iff]
  constructor
  · intro hParts
    rcases hParts with
      ⟨attr_, ⟨hAttr, hTable, hName⟩, slot, ⟨hSlot, hItem,
        hAttrId⟩, value, ⟨hValue, hValueId⟩, hContent⟩
    exact ⟨attr_, hAttr, slot, hSlot, value, hValue, hTable,
      hName, hItem, hAttrId, hValueId, hContent⟩
  · intro hParts
    rcases hParts with
      ⟨attr_, hAttr, slot, hSlot, value, hValue, hTable,
        hName, hItem, hAttrId, hValueId, hContent⟩
    exact ⟨attr_, ⟨hAttr, hTable, hName⟩, slot,
      ⟨hSlot, hItem, hAttrId⟩, value, ⟨hValue, hValueId⟩,
      hContent⟩

/- The slots of an item are for attributes of its table. -/
theorem tableId_of_slot
    (hSound : contents.Sound)
    {item : ItemRow}
    (hItem : item ∈ contents.items.rows)
    {slot : Slot}
    (hSlot : slot ∈ contents.slots)
    (hOwner : slot.itemId = item.id)
    {attr_ : Attribute}
    (hAttr : attr_ ∈ contents.attributes.rows)
    (hAttrId : attr_.id = slot.attributeId) :
    attr_.tableId = item.tableId := by
  rcases hSound.slotsFit slot hSlot with
    ⟨other, hOther, -, -, hOtherId, -, -, hTable⟩
  rw [hSound.attributes.eq_of_id hAttr hOther
    (hAttrId.trans hOtherId.symm)]
  exact hTable item hItem hOwner.symm

/- An item has at most one slot for a name. -/
theorem functional_entries
    (hSound : contents.Sound)
    {item : ItemRow}
    (hItem : item ∈ contents.items.rows) :
    NameMap.Functional
      ((contents.slotsOf item.id).filterMap
        contents.named?) := by
  intro entry hEntry another hOther hName
  rcases entry with ⟨name, content⟩
  rcases another with ⟨other, found⟩
  cases hName
  rcases List.mem_filterMap.1 hEntry with
    ⟨slot, hSlot, hEntry⟩
  rcases List.mem_filterMap.1 hOther with
    ⟨slot', hSlot', hOther⟩
  rcases mem_slotsOf_iff.1 hSlot with ⟨hSlot, hOwner⟩
  rcases mem_slotsOf_iff.1 hSlot' with ⟨hSlot', hOwner'⟩
  rcases hSound.named?_eq_some_iff.1 hEntry with
    ⟨attr_, hAttr, value, hValue, hAttrId, hValueId, hName,
      rfl⟩
  rcases hSound.named?_eq_some_iff.1 hOther with
    ⟨attr', hAttr', value', hValue', hAttrId', hValueId',
      hName', rfl⟩
  have hTable := hSound.tableId_of_slot hItem hSlot hOwner
    hAttr hAttrId
  have hTable' := hSound.tableId_of_slot hItem hSlot' hOwner'
    hAttr' hAttrId'
  have hSameAttr : attr_ = attr' :=
    List.inj_on_of_nodup_map hSound.attributeNames hAttr
      hAttr' (by simp [hTable, hTable', hName, hName'])
  have hSameSlot : slot = slot' :=
    List.inj_on_of_nodup_map hSound.slotKeys hSlot hSlot'
      (by simp [hOwner, hOwner', ← hAttrId, ← hAttrId',
        hSameAttr])
  have hSameValue : value = value' :=
    hSound.values.eq_of_id hValue hValue'
      (by rw [hValueId, hValueId', hSameSlot])
  rw [hSameValue]

------------------------------------------------------------
-- Attributes of items
------------------------------------------------------------

/- The attributes of an item are those of its table. -/
theorem get?_metadata
    (hSound : contents.Sound)
    {item : ItemRow}
    (hItem : item ∈ contents.items.rows)
    (name : String) :
    (contents.metadata item.id).get? name =
      contents.valueAt item.tableId item.id name := by
  refine Option.ext fun content => ?_
  rw [metadata, NameMap.get?_ofList
      (hSound.functional_entries hItem),
    hSound.valueAt_eq_some_iff, List.mem_filterMap]
  constructor
  · intro hParts
    rcases hParts with ⟨slot, hSlot, hEntry⟩
    rcases mem_slotsOf_iff.1 hSlot with ⟨hSlot, hOwner⟩
    rcases hSound.named?_eq_some_iff.1 hEntry with
      ⟨attr_, hAttr, value, hValue, hAttrId, hValueId, hName,
        hContent⟩
    exact ⟨attr_, hAttr, slot, hSlot, value, hValue,
      hSound.tableId_of_slot hItem hSlot hOwner hAttr hAttrId,
      hName, hOwner, hAttrId.symm, hValueId, hContent⟩
  · intro hParts
    rcases hParts with
      ⟨attr_, hAttr, slot, hSlot, value, hValue, -, hName,
        hOwner, hAttrId, hValueId, hContent⟩
    exact ⟨slot, mem_slotsOf_iff.2 ⟨hSlot, hOwner⟩,
      hSound.named?_eq_some_iff.2 ⟨attr_, hAttr, value, hValue,
        hAttrId.symm, hValueId, hName, hContent⟩⟩

/- What the store holds is normalized. -/
theorem metadata_normalized
    (hSound : contents.Sound)
    {item : ItemRow}
    (hItem : item ∈ contents.items.rows) :
    (contents.metadata item.id).normalized =
      contents.metadata item.id := by
  rw [NameMap.normalized]
  refine NameMap.ext_get? fun name => ?_
  rw [NameMap.get?_map, hSound.get?_metadata hItem]
  cases hFound : contents.valueAt item.tableId item.id name with
  | none => rfl
  | some content =>
      rcases hSound.valueAt_eq_some_iff.1 hFound with
        ⟨-, -, -, -, value, hValue, -, -, -, -, -, rfl⟩
      simp [hSound.normalized value hValue]

end Sound

------------------------------------------------------------
-- Items and their keys
------------------------------------------------------------

/- The item of a table under a key. -/
def itemUnder?
    (contents : Contents)
    (tableId : Int)
    (key : Scalar) : Option ItemRow := do
  let value ← contents.valueOf? key
  contents.itemOf? tableId value.id

/- The item of a table under a key, by name. -/
def itemIn?
    (contents : Contents)
    (table : String)
    (key : Scalar) : Option ItemRow := do
  let row ← contents.tableNamed? table
  contents.itemUnder? row.id key

/- The attributes under a key; without an item none. -/
def metadataIn
    (contents : Contents)
    (table : String)
    (key : Scalar) : Metadata :=
  match contents.itemIn? table key with
  | some item => contents.metadata item.id
  | none => .empty

/-
  An item is as it was: its row with both times, its table,
  its key and its attributes.
-/
structure Keeps
    (before after : Contents)
    (item : ItemRow) : Prop where
  row : item ∈ after.items.rows
  table : after.table? item.tableId =
    before.table? item.tableId
  key : after.value? item.valueId =
    before.value? item.valueId
  metadata : after.metadata item.id = before.metadata item.id

theorem Keeps.trans
    {first second third : Contents}
    {item : ItemRow}
    (hFirst : first.Keeps second item)
    (hSecond : second.Keeps third item) :
    first.Keeps third item :=
  ⟨hSecond.row, hSecond.table.trans hFirst.table,
    hSecond.key.trans hFirst.key,
    hSecond.metadata.trans hFirst.metadata⟩

namespace Sound

theorem itemUnder?_eq_some_iff
    (hSound : contents.Sound)
    {tableId : Int}
    {key : Scalar}
    {item : ItemRow} :
    contents.itemUnder? tableId key = some item ↔
      item ∈ contents.items.rows ∧ item.tableId = tableId ∧
        ∃ value ∈ contents.values.rows,
          value.id = item.valueId ∧
            value.content = key.normalized := by
  simp only [itemUnder?, Option.bind_eq_bind,
    Option.bind_eq_some_iff, hSound.valueOf?_eq_some_iff,
    hSound.itemOf?_eq_some_iff]
  constructor
  · intro hParts
    rcases hParts with
      ⟨value, ⟨hValue, hContent⟩, hItem, hTableId, hValueId⟩
    exact ⟨hItem, hTableId, value, hValue, hValueId.symm,
      hContent⟩
  · intro hParts
    rcases hParts with
      ⟨hItem, hTableId, value, hValue, hValueId, hContent⟩
    exact ⟨value, ⟨hValue, hContent⟩, hItem, hTableId,
      hValueId.symm⟩

theorem itemIn?_eq_some_iff
    (hSound : contents.Sound)
    {table : String}
    {key : Scalar}
    {item : ItemRow} :
    contents.itemIn? table key = some item ↔
      item ∈ contents.items.rows ∧
        (∃ row ∈ contents.tables.rows,
          row.id = item.tableId ∧ row.name = table) ∧
        ∃ value ∈ contents.values.rows,
          value.id = item.valueId ∧
            value.content = key.normalized := by
  simp only [itemIn?, Option.bind_eq_bind,
    Option.bind_eq_some_iff, hSound.tableNamed?_eq_some_iff,
    hSound.itemUnder?_eq_some_iff]
  constructor
  · intro hParts
    rcases hParts with
      ⟨row, ⟨hRow, hName⟩, hItem, hTableId, hValue⟩
    exact ⟨hItem, ⟨row, hRow, hTableId.symm, hName⟩, hValue⟩
  · intro hParts
    rcases hParts with
      ⟨hItem, ⟨row, hRow, hTableId, hName⟩, hValue⟩
    exact ⟨row, ⟨hRow, hName⟩, hItem, hTableId.symm, hValue⟩

------------------------------------------------------------
-- New rows
------------------------------------------------------------

/- Equal keys have the same item. -/
theorem itemIn?_congr
    (hSound : contents.Sound)
    (table : String)
    {key other : Scalar}
    (hSame : key.normalized = other.normalized) :
    contents.itemIn? table key =
      contents.itemIn? table other := by
  ext item
  rw [hSound.itemIn?_eq_some_iff, hSound.itemIn?_eq_some_iff,
    hSame]

/- An item under a key stays the one under it. -/
theorem itemIn?_grows
    (hSound : contents.Sound)
    {after : Contents}
    (hAfter : after.Sound)
    (hGrows : contents.Grows after)
    {table : String}
    {key : Scalar}
    {item : ItemRow}
    (hItem : contents.itemIn? table key = some item) :
    after.itemIn? table key = some item := by
  rcases hSound.itemIn?_eq_some_iff.1 hItem with
    ⟨hMem, ⟨row, hRow, hName⟩, value, hValue, hContent⟩
  exact hAfter.itemIn?_eq_some_iff.2
    ⟨hGrows.items.mem hMem,
      ⟨row, hGrows.tables.mem hRow, hName⟩, value,
      hGrows.values.mem hValue, hContent⟩

/- An item under a key was under it before, or is new. -/
theorem itemIn?_before
    (hSound : contents.Sound)
    {after : Contents}
    (hAfter : after.Sound)
    (hGrows : contents.Grows after)
    {table : String}
    {key : Scalar}
    {item : ItemRow}
    (hItem : after.itemIn? table key = some item) :
    contents.itemIn? table key = some item ∨
      contents.itemIn? table key = none ∧
        contents.items.last < item.id := by
  rcases hAfter.itemIn?_eq_some_iff.1 hItem with
    ⟨hMem, ⟨row, hRow, hTableId, hName⟩, value, hValue,
      hValueId, hContent⟩
  by_cases hNew : contents.items.last < item.id
  · refine Or.inr ⟨?_, hNew⟩
    cases hOld : contents.itemIn? table key with
    | none => rfl
    | some old =>
        have hStill :=
          hSound.itemIn?_grows hAfter hGrows hOld
        rw [hItem] at hStill
        cases hStill
        have hBound := hSound.items.bounded item
          (hSound.itemIn?_eq_some_iff.1 hOld).1
        omega
  · have hOld := hGrows.items.mem_of_le hMem (by omega)
    rcases hSound.itemsFit item hOld with
      ⟨row', hRow', value', hValue', hTableId', hValueId', -⟩
    have hSameRow : row' = row := hAfter.tables.eq_of_id
      (hGrows.tables.mem hRow') hRow
      (hTableId'.trans hTableId.symm)
    have hSameValue : value' = value :=
      hAfter.values.eq_of_id (hGrows.values.mem hValue')
        hValue (hValueId'.trans hValueId.symm)
    refine Or.inl (hSound.itemIn?_eq_some_iff.2
      ⟨hOld, ⟨row', hRow', hTableId', ?_⟩, value', hValue',
        hValueId', ?_⟩)
    · rw [hSameRow, hName]
    · rw [hSameValue, hContent]

/- New rows leave the attributes of items as they are. -/
theorem metadata_grows
    (hSound : contents.Sound)
    {after : Contents}
    (hGrows : contents.Grows after)
    (itemId : Int) :
    after.metadata itemId = contents.metadata itemId := by
  have hSlots : after.slotsOf itemId =
      contents.slotsOf itemId := by
    rw [slotsOf, slotsOf, hGrows.slots]
  rw [metadata, metadata, hSlots]
  refine congrArg NameMap.ofList
    (List.filterMap_congr fun slot hSlot => ?_)
  rcases hSound.slotsFit slot (mem_slotsOf_iff.1 hSlot).1 with
    ⟨attr_, hAttr, value, hValue, hAttrId, hValueId, -⟩
  have hFindAttr :=
    hSound.attribute?_eq_some_iff.2 ⟨hAttr, hAttrId⟩
  have hFindValue :=
    hSound.value?_eq_some_iff.2 ⟨hValue, hValueId⟩
  simp [named?, hFindAttr, hFindValue,
    hGrows.attribute?_eq_some hFindAttr,
    hGrows.value?_eq_some hFindValue]

/- New rows leave items as they are. -/
theorem keeps_grows
    (hSound : contents.Sound)
    {after : Contents}
    (hGrows : contents.Grows after)
    {item : ItemRow}
    (hItem : item ∈ contents.items.rows) :
    contents.Keeps after item := by
  rcases hSound.itemsFit item hItem with
    ⟨table, hTable, key, hKey, hTableId, hKeyId, -⟩
  have hFindTable :=
    hSound.table?_eq_some_iff.2 ⟨hTable, hTableId⟩
  have hFindKey :=
    hSound.value?_eq_some_iff.2 ⟨hKey, hKeyId⟩
  exact
    { row := hGrows.items.mem hItem
      table := by
        rw [hFindTable, hGrows.table?_eq_some hFindTable]
      key := by
        rw [hFindKey, hGrows.value?_eq_some hFindKey]
      metadata := hSound.metadata_grows hGrows item.id }

/- An item that is yet to come has no attributes. -/
theorem metadata_of_last_lt
    (hSound : contents.Sound)
    {itemId : Int}
    (hNew : contents.items.last < itemId) :
    contents.metadata itemId = .empty := by
  have hNone : contents.slotsOf itemId = [] := by
    refine List.eq_nil_iff_forall_not_mem.2 fun slot hSlot => ?_
    rcases mem_slotsOf_iff.1 hSlot with ⟨hSlot, hOwner⟩
    have hBound := hSound.slotItems slot hSlot
    omega
  rw [metadata, hNone]
  rfl

------------------------------------------------------------
-- Changes
------------------------------------------------------------

/- The attributes under a key are those it had before. -/
theorem metadataIn_grows
    (hSound : contents.Sound)
    {after : Contents}
    (hAfter : after.Sound)
    (hGrows : contents.Grows after)
    {table : String}
    {key : Scalar}
    {item : ItemRow}
    (hItem : after.itemIn? table key = some item) :
    after.metadata item.id =
      contents.metadataIn table key := by
  rw [hSound.metadata_grows hGrows, metadataIn]
  rcases hSound.itemIn?_before hAfter hGrows hItem with
    hOld | ⟨hNone, hNew⟩
  · rw [hOld]
  · rw [hNone, hSound.metadata_of_last_lt hNew]

/- What a change makes of the attributes of its item. -/
theorem valueAt_applyChange
    (hSound : contents.Sound)
    {item : ItemRow}
    {attr_ : Attribute}
    (hAttr : attr_ ∈ contents.attributes.rows)
    (hTable : attr_.tableId = item.tableId)
    (valueId : Option Int)
    (name : String) :
    (Contents.applyChange item.id contents
        ⟨attr_.id, valueId⟩).valueAt item.tableId item.id
          name =
      if name = attr_.name then do
        let value ← contents.value? (← valueId)
        pure value.content
      else
        contents.valueAt item.tableId item.id name := by
  have hFind (tableId : Int) (name : String) :
      (Contents.applyChange item.id contents
          ⟨attr_.id, valueId⟩).attributeNamed? tableId name =
        contents.attributeNamed? tableId name := by
    rw [applyChange_eq]
    rfl
  have hValue (key : Int) :
      (Contents.applyChange item.id contents
          ⟨attr_.id, valueId⟩).value? key =
        contents.value? key := by
    rw [applyChange_eq]
    rfl
  simp only [valueAt, hFind, hValue, slot?_applyChange]
  by_cases hName : name = attr_.name
  · have hFindAttr := hSound.attributeNamed?_eq_some_iff.2
      ⟨hAttr, hTable, hName.symm⟩
    rw [if_pos hName, hFindAttr]
    cases valueId <;> simp
  · rw [if_neg hName]
    cases hOther : contents.attributeNamed? item.tableId
        name with
    | none => rfl
    | some other =>
        rcases hSound.attributeNamed?_eq_some_iff.1 hOther
          with ⟨hOther, -, hOtherName⟩
        have hDiffers : other.id ≠ attr_.id := by
          intro hSame
          rw [hSound.attributes.eq_of_id hOther hAttr hSame]
            at hOtherName
          exact hName hOtherName.symm
        simp [hDiffers]

/- A change sets an attribute. -/
theorem metadata_set
    (hSound : contents.Sound)
    {item : ItemRow}
    (hItem : item ∈ contents.items.rows)
    {attr_ : Attribute}
    (hAttr : attr_ ∈ contents.attributes.rows)
    (hTable : attr_.tableId = item.tableId)
    {value : Value}
    (hValue : value ∈ contents.values.rows)
    (hKind : value.content.isNumeric = attr_.numeric) :
    (Contents.applyChange item.id contents
        ⟨attr_.id, some value.id⟩).metadata item.id =
      (contents.metadata item.id).insert attr_.name
        value.content := by
  have hAfter := hSound.applyChange hItem
    (show contents.ChangeFits item.tableId
      ⟨attr_.id, some value.id⟩ from
        ⟨attr_, hAttr, rfl, hTable, by
          intro _ hSame
          cases hSame
          exact ⟨value, hValue, rfl, hKind⟩⟩)
  have hFind :=
    hSound.value?_eq_some_iff.2 ⟨hValue, rfl⟩
  refine NameMap.ext_get? fun name => ?_
  rw [hAfter.get?_metadata (by rwa [applyChange_eq]),
    hSound.valueAt_applyChange hAttr hTable,
    NameMap.get?_insert, hSound.get?_metadata hItem]
  simp [hFind]

/- A change erases an attribute. -/
theorem metadata_erase
    (hSound : contents.Sound)
    {item : ItemRow}
    (hItem : item ∈ contents.items.rows)
    {attr_ : Attribute}
    (hAttr : attr_ ∈ contents.attributes.rows)
    (hTable : attr_.tableId = item.tableId) :
    (Contents.applyChange item.id contents
        ⟨attr_.id, none⟩).metadata item.id =
      (contents.metadata item.id).erase attr_.name := by
  have hAfter := hSound.applyChange hItem
    (show contents.ChangeFits item.tableId
      ⟨attr_.id, none⟩ from
        ⟨attr_, hAttr, rfl, hTable, by
          rintro _ ⟨⟩⟩)
  refine NameMap.ext_get? fun name => ?_
  rw [hAfter.get?_metadata (by rwa [applyChange_eq]),
    hSound.valueAt_applyChange hAttr hTable,
    NameMap.get?_erase, hSound.get?_metadata hItem]
  simp

/- An attribute that its table does not have is not there. -/
theorem erase_metadata_of_unknown
    (hSound : contents.Sound)
    {item : ItemRow}
    (hItem : item ∈ contents.items.rows)
    {name : String}
    (hUnknown :
      contents.attributeNamed? item.tableId name = none) :
    (contents.metadata item.id).erase name =
      contents.metadata item.id := by
  refine NameMap.ext_get? fun other => ?_
  rw [NameMap.get?_erase, hSound.get?_metadata hItem]
  split
  · rename_i hName
    simp [valueAt, hName, hUnknown]
  · rfl

end Sound

/- Changes of an item leave the others as they are. -/
theorem keeps_applyChanges
    {item : ItemRow}
    (hItem : item ∈ contents.items.rows)
    {itemId : Int}
    (hOther : item.id ≠ itemId)
    (changes : List SlotChange) :
    contents.Keeps (contents.applyChanges itemId changes)
      item := by
  have hSlots := slotsOf_applyChanges_of_ne contents hOther
    changes
  rw [applyChanges_eq] at hSlots ⊢
  exact ⟨hItem, rfl, rfl, by
    rw [metadata, metadata, hSlots]
    rfl⟩

/- Setting the time of an item leaves the others. -/
theorem keeps_touch
    {item : ItemRow}
    (hItem : item ∈ contents.items.rows)
    {itemId : Int}
    (hOther : item.id ≠ itemId)
    (now : Cell) :
    contents.Keeps (contents.touch itemId now).2 item := by
  refine ⟨?_, rfl, rfl, rfl⟩
  rw [touch_eq]
  exact List.mem_map.2 ⟨item, hItem, touched_of_ne hOther⟩

end Contents

end SparseTables
