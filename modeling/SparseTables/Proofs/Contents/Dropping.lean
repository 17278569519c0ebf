import SparseTables.Proofs.Contents.Removals
import SparseTables.Proofs.Contents.Views

/-
  This file shows what is left of contents without a table,
  and of contents that are wiped.

  The slots of a table are found in three ways: by their
  attributes, by their items, and because their items are
  gone.  In sound contents these leave the slots of the items
  that stay, and nothing refers to the table any more.

  A table is removed part by part, and so is everything.  If
  a part is missing already, the contents without the table,
  and the wiped contents, are the same.

  Main declarations:
    * `Contents.without`
    * `Contents.Sound.purged_slots`
    * `Contents.removeTables_purged`
    * `Contents.Loses`
    * `Contents.Sound.loses`
    * `Contents.without_removeSlots`
    * `Contents.wiped`
    * `Contents.removeValues_unused`
    * `Contents.removeTables_unused`
-/

namespace SparseTables

namespace Contents

variable {contents : Contents}

------------------------------------------------------------
-- Purging
------------------------------------------------------------

/- Is a slot one of an item that belongs to another table? -/
def staysWithout
    (contents : Contents)
    (tableId : Int)
    (slot : Slot) : Bool :=
  contents.items.rows.any fun item =>
    item.id == slot.itemId && !(item.tableId == tableId)

/- The contents without a table and all that belongs to it. -/
def without (contents : Contents) (tableId : Int) :
    Contents where
  tables := contents.tables.remove fun row =>
    row.id == tableId
  attributes := contents.attributes.remove fun row =>
    row.tableId == tableId
  values := contents.values
  items := contents.items.remove fun row =>
    row.tableId == tableId
  slots := contents.slots.filter
    (contents.staysWithout tableId)

/- The contents when the attributes of a table are purged. -/
def withoutAttributes
    (contents : Contents)
    (tableId : Int) : Contents :=
  ((contents.removeSlots
      (Statement.usesTable contents tableId)).2.removeAttributes
    fun row => row.tableId == tableId).2

/- The contents when the items of a table are purged. -/
def withoutItems
    (contents : Contents)
    (tableId : Int) : Contents :=
  let removed :=
    ((contents.removeSlots
        (Statement.ownedBy contents tableId)).2.removeItems
      fun row => row.tableId == tableId).2
  (removed.removeSlots (Statement.isOrphan removed)).2

/- The slots of a table go before its attributes. -/
theorem Sound.purgeAttributes
    (hSound : contents.Sound)
    (tableId : Int) :
    (contents.withoutAttributes tableId).Sound := by
  refine (hSound.removeSlots _).removeAttributes ?_
  intro slot hSlot attr_ hAttr hAttrId
  have hKept := List.of_mem_filter hSlot
  by_contra hDoomed
  have hUsed :
      Statement.usesTable contents tableId slot = true :=
    List.any_eq_true.2 ⟨attr_, hAttr, by
      simpa [hAttrId] using hDoomed⟩
  simp [hUsed] at hKept

/- The slots that are not purged are those that stay. -/
theorem Sound.staysWithout_eq
    (hSound : contents.Sound)
    (tableId : Int)
    {slot : Slot}
    (hSlot : slot ∈ contents.slots) :
    contents.staysWithout tableId slot =
      (!Statement.isOrphan
          (contents.removeItems fun row =>
            row.tableId == tableId).2 slot &&
        (!Statement.ownedBy contents tableId slot &&
          !Statement.usesTable contents tableId slot)) := by
  rw [Bool.eq_iff_iff]
  simp only [staysWithout, Statement.usesTable,
    Statement.ownedBy, Statement.isOrphan, item?,
    Contents.removeItems, mem_remove_iff, Bool.and_eq_true,
    Bool.not_eq_true', List.any_eq_true, List.any_eq_false,
    beq_iff_eq, not_and, Option.isNone_eq_false_iff,
    List.find?_isSome, beq_eq_false_iff_ne]
  constructor
  · rintro ⟨item, hItem, hId, hOther⟩
    refine ⟨⟨item, ⟨hItem, hOther⟩, hId⟩, ?_, ?_⟩
    · intro other hMem hOtherId
      rwa [hSound.items.eq_of_id hMem hItem
        (hOtherId.trans hId.symm)]
    · intro attr_ hAttr hAttrId
      rwa [hSound.tableId_of_slot hItem hSlot hId.symm hAttr
        hAttrId]
  · rintro ⟨⟨item, ⟨hItem, hOther⟩, hId⟩, -⟩
    exact ⟨item, hItem, hId, hOther⟩

/- Attributes and items are purged, and the rest stays. -/
theorem Sound.purged
    (hSound : contents.Sound)
    (tableId : Int) :
    (contents.withoutAttributes tableId).withoutItems
        tableId =
      { contents.without tableId with
        tables := contents.tables } := by
  have hSlots : ((contents.withoutAttributes
      tableId).withoutItems tableId).slots =
        contents.slots.filter
          (contents.staysWithout tableId) := by
    simp only [withoutItems, withoutAttributes,
      Contents.removeSlots, Contents.removeAttributes,
      Contents.removeItems, List.filter_filter]
    refine List.filter_congr fun slot hSlot => ?_
    rw [hSound.staysWithout_eq tableId hSlot]
    rfl
  rw [without, ← hSlots]
  rfl

/- Nothing refers to a table that was purged. -/
theorem removeTables_purged
    (contents : Contents)
    (tableId : Int) :
    ∃ count,
      { contents.without tableId with
          tables := contents.tables }.removeTables
        (fun other => other == tableId) =
      .ok (count, contents.without tableId) := by
  refine ⟨_, if_neg ?_⟩
  simp only [without, Register.remove, List.any_filter,
    List.any_eq_true, Bool.and_eq_true, Bool.or_eq_true,
    beq_iff_eq, Bool.not_eq_true', beq_eq_false_iff_ne,
    not_exists, not_and, not_or]
  rintro row - rfl
  exact ⟨fun attr_ _ hOther => hOther,
    fun item _ hOther => hOther⟩

------------------------------------------------------------
-- What is left
------------------------------------------------------------

/-
  What the drop of a table makes of the contents.  The table
  is gone with its attributes and items, and so are all slots
  without an item.  Everything else is as it was; identities
  are not given again.
-/
structure Loses
    (before after : Contents)
    (table : Table) : Prop where
  tables : ∀ row, row ∈ after.tables.rows ↔
    row ∈ before.tables.rows ∧ row ≠ table
  attributes : ∀ row, row ∈ after.attributes.rows ↔
    row ∈ before.attributes.rows ∧ row.tableId ≠ table.id
  items : ∀ item, item ∈ after.items.rows ↔
    item ∈ before.items.rows ∧ item.tableId ≠ table.id
  slots : ∀ slot, slot ∈ after.slots ↔
    slot ∈ before.slots ∧
      ∃ item ∈ after.items.rows, item.id = slot.itemId
  known : ∀ slot ∈ after.slots,
    ∃ attr_ ∈ after.attributes.rows,
      attr_.id = slot.attributeId
  values : after.values = before.values
  kept : ∀ item ∈ after.items.rows, before.Keeps after item
  last : after.tables.last = before.tables.last ∧
    after.attributes.last = before.attributes.last ∧
    after.items.last = before.items.last

variable {table : Table}

/- A search that passes over what is removed. -/
theorem find?_remove
    {ρ : Type}
    {register : Register ρ}
    {doomed wanted : ρ → Bool}
    (hApart : ∀ row ∈ register.rows, wanted row = true →
      doomed row = false) :
    (register.remove doomed).rows.find? wanted =
      register.rows.find? wanted := by
  rcases register with ⟨rows, last⟩
  induction rows with
  | nil => rfl
  | cons row rest ih =>
      have hRest := ih fun other hOther =>
        hApart other (List.mem_cons_of_mem row hOther)
      have hRow := hApart row List.mem_cons_self
      simp only [Register.remove] at hRest ⊢
      by_cases hWanted : wanted row = true
      · simp [hWanted, hRow hWanted]
      · by_cases hDoomed : doomed row = true
        · simp [hWanted, hDoomed, hRest]
        · simp [hWanted, hDoomed, hRest]

/- The slots of an item that stays are those it had. -/
theorem slotsOf_without
    {tableId : Int}
    {item : ItemRow}
    (hItem : item ∈ contents.items.rows)
    (hOther : item.tableId ≠ tableId) :
    (contents.without tableId).slotsOf item.id =
      contents.slotsOf item.id := by
  have hFilter :
      (contents.without tableId).slots.filter
          (fun slot => slot.itemId == item.id) =
        contents.slots.filter
          (fun slot => slot.itemId == item.id) := by
    simp only [without, List.filter_filter]
    refine List.filter_congr fun slot _ => ?_
    by_cases hOwner : slot.itemId = item.id
    · have hStays : contents.staysWithout tableId slot =
          true :=
        List.any_eq_true.2 ⟨item, hItem, by
          simp [hOwner, hOther]⟩
      simp [hOwner, hStays]
    · simp [hOwner]
  rw [slotsOf, hFilter, slotsOf]

namespace Sound

/- An item that stays is as it was. -/
theorem keeps_without
    (hSound : contents.Sound)
    {tableId : Int}
    {item : ItemRow}
    (hItem : item ∈ contents.items.rows)
    (hOther : item.tableId ≠ tableId) :
    contents.Keeps (contents.without tableId) item where
  row := mem_remove_iff.2 ⟨hItem, by simpa using hOther⟩
  table := by
    refine find?_remove fun row _ hRow => ?_
    rw [beq_iff_eq] at hRow
    simpa [hRow] using hOther
  key := rfl
  metadata := by
    rw [metadata, slotsOf_without hItem hOther,
      metadata]
    congr 1
    refine List.filterMap_congr fun slot hSlot => ?_
    rcases mem_slotsOf_iff.1 hSlot with ⟨hMem, hOwner⟩
    have hAttribute :
        (contents.without tableId).attribute?
            slot.attributeId =
          contents.attribute? slot.attributeId := by
      refine find?_remove fun attr_ hAttr hAttrId => ?_
      rw [beq_iff_eq] at hAttrId
      have hTable := hSound.tableId_of_slot hItem hMem
        hOwner hAttr hAttrId
      simpa [hTable] using hOther
    rw [named?, hAttribute]
    rfl

/- The contents without a table are those when it is gone. -/
theorem loses
    (hSound : contents.Sound)
    (hTable : table ∈ contents.tables.rows) :
    contents.Loses (contents.without table.id) table where
  tables row := by
    refine mem_remove_iff.trans (and_congr_right fun hRow => ?_)
    rw [beq_eq_false_iff_ne]
    refine not_congr ⟨?_, fun hSame => hSame ▸ rfl⟩
    exact hSound.tables.eq_of_id hRow hTable
  attributes row :=
    mem_remove_iff.trans (by simp)
  items item :=
    mem_remove_iff.trans (by simp)
  slots slot := by
    simp [without, staysWithout, mem_remove_iff, and_assoc,
      and_comm]
  known slot hSlot := by
    rcases List.mem_filter.1 hSlot with ⟨hMem, hStays⟩
    rcases List.any_eq_true.1 hStays with
      ⟨item, hItem, hOwner⟩
    simp only [Bool.and_eq_true, beq_iff_eq,
      Bool.not_eq_true', beq_eq_false_iff_ne] at hOwner
    rcases hSound.slotsFit slot hMem with
      ⟨attr_, hAttr, -, -, hAttrId, -⟩
    refine ⟨attr_, mem_remove_iff.2 ⟨hAttr, ?_⟩, hAttrId⟩
    rw [hSound.tableId_of_slot hItem hMem hOwner.1.symm hAttr
      hAttrId]
    simpa using hOwner.2
  values := rfl
  kept item hItem := by
    rcases mem_remove_iff.1 hItem with ⟨hMem, hOther⟩
    exact hSound.keeps_without hMem (by simpa using hOther)
  last := ⟨rfl, rfl, rfl⟩

end Sound

end Contents

------------------------------------------------------------
-- Registers
------------------------------------------------------------

namespace Register

variable {ρ : Type}

/- What is removed twice is removed. -/
theorem remove_remove
    (register : Register ρ)
    (doomed : ρ → Bool) :
    (register.remove doomed).remove doomed =
      register.remove doomed := by
  simp only [remove, List.filter_filter, Bool.and_self]

/- A register without rows; its identities stay taken. -/
def wiped (register : Register ρ) : Register ρ :=
  { register with rows := [] }

theorem remove_all (register : Register ρ) :
    (register.remove fun _ => true) = register.wiped := by
  simp [remove, wiped]

end Register

namespace Contents

variable {contents : Contents}

------------------------------------------------------------
-- Parts of a table
------------------------------------------------------------

section Without

variable {tableId : Int}

/- Slots are missing that do not stay. -/
theorem without_removeSlots
    {doomed : Slot → Bool}
    (hStays : ∀ slot ∈ contents.slots,
      contents.staysWithout tableId slot = true →
        doomed slot = false) :
    (contents.removeSlots doomed).2.without tableId =
      contents.without tableId := by
  have hSlots :
      (contents.slots.filter fun slot =>
        !doomed slot).filter (contents.staysWithout tableId) =
      contents.slots.filter
        (contents.staysWithout tableId) := by
    rw [List.filter_filter]
    refine List.filter_congr fun slot hSlot => ?_
    cases hKept : contents.staysWithout tableId slot with
    | false => rfl
    | true => rw [hStays slot hSlot hKept]; rfl
  exact congrArg
    (fun slots => { contents.without tableId with slots })
    hSlots

/- The attributes of the table are missing. -/
theorem without_removeAttributes :
    (contents.removeAttributes fun row =>
        row.tableId == tableId).2.without tableId =
      contents.without tableId := by
  simp only [without, removeAttributes,
    Register.remove_remove]
  rfl

/- The items of the table are missing. -/
theorem without_removeItems :
    (contents.removeItems fun row =>
        row.tableId == tableId).2.without tableId =
      contents.without tableId := by
  have hStays : (contents.removeItems fun row =>
        row.tableId == tableId).2.staysWithout tableId =
      contents.staysWithout tableId := by
    funext slot
    rw [Bool.eq_iff_iff]
    simp only [staysWithout, removeItems, List.any_eq_true,
      mem_remove_iff, Bool.and_eq_true, Bool.not_eq_true']
    constructor
    · rintro ⟨item, ⟨hItem, -⟩, hStays⟩
      exact ⟨item, hItem, hStays⟩
    · rintro ⟨item, hItem, hStays⟩
      exact ⟨item, ⟨hItem, hStays.2⟩, hStays⟩
  rw [without, hStays]
  simp only [removeItems, Register.remove_remove]
  rfl

/- A slot that stays has its item. -/
theorem not_isOrphan_of_stays
    {slot : Slot}
    (hStays : contents.staysWithout tableId slot = true) :
    Statement.isOrphan contents slot = false := by
  rcases List.any_eq_true.1 hStays with ⟨item, hItem, hOwner⟩
  rw [Bool.and_eq_true] at hOwner
  rw [Statement.isOrphan, Option.isNone_eq_false_iff, item?,
    List.find?_isSome]
  exact ⟨item, hItem, hOwner.1⟩

namespace Sound

/- A slot that stays is not one that is purged. -/
theorem not_purged_of_stays
    (hSound : contents.Sound)
    {slot : Slot}
    (hSlot : slot ∈ contents.slots)
    (hStays : contents.staysWithout tableId slot = true) :
    Statement.ownedBy contents tableId slot = false ∧
      Statement.usesTable contents tableId slot = false := by
  rw [hSound.staysWithout_eq tableId hSlot] at hStays
  simpa using (Bool.and_eq_true_iff.1 hStays).2

end Sound

end Without

------------------------------------------------------------
-- Everything
------------------------------------------------------------

/-
  The contents without items and slots, and on demand without
  anything; identities stay taken.
-/
def wiped
    (contents : Contents)
    (dictionaries : Bool) : Contents :=
  if dictionaries then
    { tables := contents.tables.wiped
      attributes := contents.attributes.wiped
      values := contents.values.wiped
      items := contents.items.wiped
      slots := [] }
  else
    { contents with
      items := contents.items.wiped
      slots := [] }

theorem removeSlots_all (contents : Contents) :
    ∃ count, (contents.removeSlots fun _ => true) =
      (count, { contents with slots := [] }) := by
  refine ⟨contents.slots.length, ?_⟩
  simp [removeSlots]

theorem removeItems_all (contents : Contents) :
    ∃ count, (contents.removeItems fun _ => true) =
      (count,
        { contents with items := contents.items.wiped }) := by
  refine ⟨contents.items.rows.length, ?_⟩
  simp [removeItems, Register.remove_all]

theorem removeAttributes_all (contents : Contents) :
    ∃ count, (contents.removeAttributes fun _ => true) =
      (count,
        { contents with
          attributes := contents.attributes.wiped }) := by
  refine ⟨contents.attributes.rows.length, ?_⟩
  simp [removeAttributes, Register.remove_all]

/- Values can go when there are no items. -/
theorem removeValues_unused
    (contents : Contents)
    (hItems : contents.items.rows = []) :
    ∃ count, contents.removeValues =
      .ok (count,
        { contents with values := contents.values.wiped }) := by
  refine ⟨contents.values.rows.length, ?_⟩
  simp [removeValues, hItems, Register.remove_all]

/- Tables can go when there are no attributes and items. -/
theorem removeTables_unused
    (contents : Contents)
    (hAttributes : contents.attributes.rows = [])
    (hItems : contents.items.rows = []) :
    ∃ count, contents.removeTables (fun _ => true) =
      .ok (count,
        { contents with tables := contents.tables.wiped }) := by
  refine ⟨contents.tables.rows.length, ?_⟩
  simp [removeTables, hAttributes, hItems,
    Register.remove_all]

end Contents

end SparseTables
