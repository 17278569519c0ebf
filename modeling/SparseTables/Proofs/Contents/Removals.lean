import SparseTables.Proofs.Contents.Growth

/-
  This file shows that rows can be removed from sound
  contents, and which rows must not be referred to then.

  Items can always be removed: their slots stay behind.

  Main declarations:
    * `Contents.Sound.removeTables`
    * `Contents.Sound.removeAttributes`
    * `Contents.Sound.removeValues`
    * `Contents.Sound.removeItems`
    * `Contents.Sound.removeSlots`
-/

namespace SparseTables

namespace Contents

variable {contents after : Contents}

------------------------------------------------------------
-- Kept rows
------------------------------------------------------------

theorem mem_remove_iff
    {ρ : Type}
    {register : Register ρ}
    {doomed : ρ → Bool}
    {row : ρ} :
    row ∈ (register.remove doomed).rows ↔
      row ∈ register.rows ∧ doomed row = false := by
  simp [Register.remove]

theorem nodup_map_filter
    {ρ κ : Type}
    {rows : List ρ}
    {key : ρ → κ}
    (hNodup : (rows.map key).Nodup)
    (keep : ρ → Bool) :
    ((rows.filter keep).map key).Nodup :=
  hNodup.sublist (List.filter_sublist.map key)

------------------------------------------------------------
-- Tables
------------------------------------------------------------

/- Removed tables have neither attributes nor items. -/
theorem removeTables_eq_ok
    {doomed : Int → Bool}
    {count : Nat}
    (hRemove : contents.removeTables doomed =
      .ok (count, after)) :
    (∀ table ∈ contents.tables.rows, doomed table.id →
      (∀ attr_ ∈ contents.attributes.rows,
        attr_.tableId ≠ table.id) ∧
      ∀ item ∈ contents.items.rows,
        item.tableId ≠ table.id) ∧
      after =
        { contents with
          tables := contents.tables.remove fun row =>
            doomed row.id } := by
  simp only [removeTables] at hRemove
  split at hRemove
  · simp [dangling] at hRemove
  · rename_i hFree
    simp only [Except.ok.injEq, Prod.mk.injEq] at hRemove
    refine ⟨?_, hRemove.2.symm⟩
    intro table hTable hDoomed
    simp only [List.any_filter, List.any_eq_true,
      Bool.and_eq_true, Bool.or_eq_true, not_exists,
      not_and, not_or] at hFree
    rcases hFree table hTable hDoomed with
      ⟨hAttributes, hItems⟩
    exact ⟨by simpa using hAttributes,
      by simpa using hItems⟩

theorem ages_removeTables
    {doomed : Int → Bool}
    {count : Nat}
    (hRemove : contents.removeTables doomed =
      .ok (count, after)) :
    contents.Ages after := by
  rcases removeTables_eq_ok hRemove with ⟨-, rfl⟩
  exact { Ages.refl contents with tables := .remove _ _ }

namespace Sound

theorem removeTables
    (hSound : contents.Sound)
    {doomed : Int → Bool}
    {count : Nat}
    (hRemove : contents.removeTables doomed =
      .ok (count, after)) :
    after.Sound := by
  rcases removeTables_eq_ok hRemove with ⟨hFree, rfl⟩
  have hKept : ∀ table ∈ contents.tables.rows,
      ((∃ attr_ ∈ contents.attributes.rows,
        attr_.tableId = table.id) ∨
      ∃ item ∈ contents.items.rows,
        item.tableId = table.id) →
      table ∈ (contents.tables.remove fun row =>
        doomed row.id).rows := by
    intro table hTable hUsed
    refine mem_remove_iff.2
      ⟨hTable, Bool.eq_false_iff.2 ?_⟩
    intro hDoomed
    rcases hFree table hTable hDoomed with
      ⟨hAttributes, hItems⟩
    rcases hUsed with ⟨attr_, hAttr, hOwner⟩ |
      ⟨item, hItem, hOwner⟩
    · exact hAttributes attr_ hAttr hOwner
    · exact hItems item hItem hOwner
  exact { hSound with
    tables := hSound.tables.remove _
    tableNames := nodup_map_filter hSound.tableNames _
    attributeTables := by
      intro attr_ hAttr
      rcases hSound.attributeTables attr_ hAttr with
        ⟨table, hTable, hOwner⟩
      exact ⟨table, hKept table hTable
        (Or.inl ⟨attr_, hAttr, hOwner.symm⟩), hOwner⟩
    itemsFit := by
      intro item hItem
      rcases hSound.itemsFit item hItem with
        ⟨table, hTable, key, hKey, hOwner, hRest⟩
      exact ⟨table, hKept table hTable
        (Or.inr ⟨item, hItem, hOwner.symm⟩), key, hKey,
        hOwner, hRest⟩
    slotsFit := hSound.slotsFit }

------------------------------------------------------------
-- Attributes
------------------------------------------------------------

/- Attributes can go that no slot is for. -/
theorem removeAttributes
    (hSound : contents.Sound)
    {doomed : Attribute → Bool}
    (hFree : ∀ slot ∈ contents.slots,
      ∀ attr_ ∈ contents.attributes.rows,
        attr_.id = slot.attributeId →
          doomed attr_ = false) :
    (contents.removeAttributes doomed).2.Sound :=
  { hSound with
    attributes := hSound.attributes.remove _
    attributeNames :=
      nodup_map_filter hSound.attributeNames _
    attributeTables := fun attr_ hAttr =>
      hSound.attributeTables attr_
        (List.mem_of_mem_filter hAttr)
    slotsFit := by
      intro slot hSlot
      rcases hSound.slotsFit slot hSlot with
        ⟨attr_, hAttr, value, hValue, hAttrId, hRest⟩
      exact ⟨attr_, mem_remove_iff.2
        ⟨hAttr, hFree slot hSlot attr_ hAttr hAttrId⟩,
        value, hValue, hAttrId, hRest⟩ }

end Sound

------------------------------------------------------------
-- Values
------------------------------------------------------------

/- Values can only go when no item has a key among them. -/
theorem removeValues_eq_ok
    {count : Nat}
    (hRemove : contents.removeValues = .ok (count, after)) :
    (∀ value ∈ contents.values.rows,
      ∀ item ∈ contents.items.rows,
        item.valueId ≠ value.id) ∧
      after =
        { contents with
          values := contents.values.remove fun _ => true } := by
  simp only [removeValues] at hRemove
  split at hRemove
  · simp [dangling] at hRemove
  · rename_i hFree
    simp only [Except.ok.injEq, Prod.mk.injEq] at hRemove
    refine ⟨?_, hRemove.2.symm⟩
    intro value hValue item hItem hUsed
    simp only [List.any_eq_true, beq_iff_eq, not_exists,
      not_and] at hFree
    exact hFree value hValue item hItem hUsed

namespace Sound

/- Values can go when there are no slots. -/
theorem removeValues
    (hSound : contents.Sound)
    (hSlots : contents.slots = [])
    {count : Nat}
    (hRemove : contents.removeValues = .ok (count, after)) :
    after.Sound := by
  rcases removeValues_eq_ok hRemove with ⟨hFree, rfl⟩
  exact { hSound with
    values := hSound.values.remove _
    valueContents := nodup_map_filter hSound.valueContents _
    normalized := fun value hValue =>
      hSound.normalized value (List.mem_of_mem_filter hValue)
    storable := fun value hValue =>
      hSound.storable value (List.mem_of_mem_filter hValue)
    itemsFit := by
      intro item hItem
      rcases hSound.itemsFit item hItem with
        ⟨_, _, key, hKey, _, hKeyId, _⟩
      exact absurd hKeyId.symm (hFree key hKey item hItem)
    slotsFit := by simp [hSlots] }

------------------------------------------------------------
-- Items
------------------------------------------------------------

/- Items can always go. -/
theorem removeItems
    (hSound : contents.Sound)
    (doomed : ItemRow → Bool) :
    (contents.removeItems doomed).2.Sound :=
  { hSound with
    items := hSound.items.remove _
    itemKeys := nodup_map_filter hSound.itemKeys _
    itemsFit := fun item hItem =>
      hSound.itemsFit item (List.mem_of_mem_filter hItem)
    slotsFit := by
      intro slot hSlot
      rcases hSound.slotsFit slot hSlot with
        ⟨attr_, hAttr, value, hValue, hAttrId, hValueId,
          hKind, hOwner⟩
      exact ⟨attr_, hAttr, value, hValue, hAttrId,
        hValueId, hKind, fun item hItem =>
          hOwner item (List.mem_of_mem_filter hItem)⟩ }

------------------------------------------------------------
-- Slots
------------------------------------------------------------

/- Slots can always go. -/
theorem removeSlots
    (hSound : contents.Sound)
    (doomed : Slot → Bool) :
    (contents.removeSlots doomed).2.Sound :=
  { hSound with
    slotKeys := nodup_map_filter hSound.slotKeys _
    slotsFit := fun slot hSlot =>
      hSound.slotsFit slot (List.mem_of_mem_filter hSlot)
    slotItems := fun slot hSlot =>
      hSound.slotItems slot (List.mem_of_mem_filter hSlot) }

end Sound

end Contents

end SparseTables
