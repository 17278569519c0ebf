import SparseTables.Proofs.Contents.Additions
import SparseTables.Proofs.Contents.Changes
import SparseTables.Proofs.Contents.Removals
import SparseTables.Store.Statement

/-
  This file lists what a statement can do to the contents of
  the store, and defines what holds of the contents whoever
  uses the store: what every single statement keeps, however
  the statements of several callers follow each other.

  Unlike sound contents, formed contents may have slots that
  refer to nothing.

  Main declarations:
    * `Statement.Effect`
    * `Statement.effect`
    * `Contents.Formed`
    * `Contents.Formed.effect`
    * `Statement.Leaves`
    * `Statement.Spares`
    * `Contents.Retains`
    * `Statement.Effect.ages`
    * `Statement.Effect.retains`
-/

namespace SparseTables

------------------------------------------------------------
-- Effects of statements
------------------------------------------------------------

namespace Statement

/-
  What a statement makes of the contents.  Statements that
  remove from the dictionaries, and the one that adds a slot,
  are named; the others are not told apart.
-/
inductive Effect
    (clock : Clock)
    (before : Contents) : Statement → Contents → Prop where
  | same {asked : Statement} : Effect clock before asked before
  -- new rows
  | addTable
      {asked : Statement}
      {name : String}
      {numeric : Bool}
      {id : Int}
      {after : Contents}
      (hAdd : before.addTable name numeric = .ok (id, after)) :
      Effect clock before asked after
  | addAttribute
      {asked : Statement}
      {tableId : Int}
      {name : String}
      {numeric : Bool}
      {id : Int}
      {after : Contents}
      (hAdd : before.addAttribute tableId name numeric =
        .ok (id, after)) :
      Effect clock before asked after
  | addValue
      {asked : Statement}
      {content : Scalar}
      {id : Int}
      {after : Contents}
      (hAdd : before.addValue content = .ok (id, after)) :
      Effect clock before asked after
  | addItem
      {asked : Statement}
      {tableId valueId : Int}
      {id : Int}
      {after : Contents}
      (hAdd : before.addItem tableId valueId clock.cell =
        .ok (id, after)) :
      Effect clock before asked after
  | addSlot (slot : Slot) :
      Effect clock before (.addSlot slot)
        (before.addSlot slot).2
  -- changed and removed items, removed slots
  | touch {asked : Statement} (id : Int) :
      Effect clock before asked
        (before.touch id clock.cell).2
  | removeItems
      {asked : Statement}
      (doomed : ItemRow → Bool) :
      Effect clock before asked (before.removeItems doomed).2
  | removeSlots
      {asked : Statement}
      (doomed : Slot → Bool) :
      Effect clock before asked (before.removeSlots doomed).2
  -- removed dictionary rows
  | removeTable
      {id : Int}
      {count : Nat}
      {after : Contents}
      (hRemove : before.removeTables (fun other =>
        other == id) = .ok (count, after)) :
      Effect clock before (.removeTable id) after
  | removeTables
      {count : Nat}
      {after : Contents}
      (hRemove : before.removeTables (fun _ => true) =
        .ok (count, after)) :
      Effect clock before .removeTables after
  | removeAttributesOf (tableId : Int) :
      Effect clock before (.removeAttributesOf tableId)
        (before.removeAttributes fun row =>
          row.tableId == tableId).2
  | removeAttributes :
      Effect clock before .removeAttributes
        (before.removeAttributes fun _ => true).2
  | removeValues
      {count : Nat}
      {after : Contents}
      (hRemove : before.removeValues = .ok (count, after)) :
      Effect clock before .removeValues after

/- Whatever a statement does is among its effects. -/
theorem effect
    {clock : Clock}
    {before after : Contents}
    {asked : Statement}
    {answer : asked.Answer}
    (hRun : asked.run clock before = .ok (answer, after)) :
    Effect clock before asked after := by
  cases asked
  case addTable => exact .addTable hRun
  case addTableUncounted name numeric =>
      simp only [run] at hRun
      cases hAdd : before.addTable name numeric with
      | error error => simp [hAdd, Except.map] at hRun
      | ok added =>
          simp only [hAdd, Except.map, Except.ok.injEq,
            Prod.mk.injEq] at hRun
          rw [← hRun.2]
          exact .addTable hAdd
  case addAttribute => exact .addAttribute hRun
  case addValue => exact .addValue hRun
  case addItem => exact .addItem hRun
  case addSlot slot =>
      have hAfter : (before.addSlot slot).2 = after :=
        congrArg Prod.snd (Except.ok.inj hRun)
      exact hAfter ▸ .addSlot slot
  case touchItem id =>
      cases hRun
      exact .touch id
  case removeTable => exact .removeTable hRun
  case removeTables => exact .removeTables hRun
  case removeAttributesOf tableId =>
      cases hRun
      exact .removeAttributesOf tableId
  case removeAttributes =>
      cases hRun
      exact .removeAttributes
  case removeValues => exact .removeValues hRun
  case removeItem | removeItemsOf | removeItems =>
      cases hRun
      exact .removeItems _
  case removeSlot | removeSlotsByAttributes |
      removeSlotsOf | removeOrphans | removeSlots =>
      cases hRun
      exact .removeSlots _
  case select plan params =>
      simp only [run] at hRun
      cases hFound : plan.run before params with
      | error error => simp [hFound, Except.map] at hRun
      | ok found =>
          simp only [hFound, Except.map, Except.ok.injEq,
            Prod.mk.injEq] at hRun
          rw [← hRun.2]
          exact .same
  all_goals
      cases hRun
      exact .same

end Statement

namespace Contents

------------------------------------------------------------
-- Formed contents
------------------------------------------------------------

/- What the store itself sees to. -/
structure Formed (contents : Contents) : Prop where
  tables : contents.tables.Ordered Table.id
  attributes : contents.attributes.Ordered Attribute.id
  values : contents.values.Ordered Value.id
  items : contents.items.Ordered ItemRow.id
  normalized : ∀ value ∈ contents.values.rows,
    value.content.normalized = value.content
  attributeTables : ∀ attr_ ∈ contents.attributes.rows,
    ∃ table ∈ contents.tables.rows,
      table.id = attr_.tableId
  itemTables : ∀ item ∈ contents.items.rows,
    ∃ table ∈ contents.tables.rows, table.id = item.tableId
  slotItems : ∀ slot ∈ contents.slots,
    slot.itemId ≤ contents.items.last

theorem Sound.formed
    {contents : Contents}
    (hSound : contents.Sound) :
    contents.Formed :=
  { hSound with
    itemTables := by
      intro item hItem
      rcases hSound.itemsFit item hItem with
        ⟨table, hTable, -, -, hId, -⟩
      exact ⟨table, hTable, hId⟩ }

variable {contents after : Contents}

namespace Formed

/- The table of an attribute was given out. -/
theorem attribute_le
    (hFormed : contents.Formed)
    {attr_ : Attribute}
    (hAttr : attr_ ∈ contents.attributes.rows) :
    attr_.tableId ≤ contents.tables.last := by
  rcases hFormed.attributeTables attr_ hAttr with
    ⟨table, hTable, hId⟩
  exact hId ▸ hFormed.tables.bounded table hTable

/- So was the table of an item. -/
theorem item_le
    (hFormed : contents.Formed)
    {item : ItemRow}
    (hItem : item ∈ contents.items.rows) :
    item.tableId ≤ contents.tables.last := by
  rcases hFormed.itemTables item hItem with
    ⟨table, hTable, hId⟩
  exact hId ▸ hFormed.tables.bounded table hTable

/- A row that is found by its identity is there. -/
theorem exists_table
    {tableId : Int}
    (hTable : (contents.table? tableId).isSome) :
    ∃ table ∈ contents.tables.rows, table.id = tableId := by
  rcases Option.isSome_iff_exists.1 hTable with
    ⟨table, hFind⟩
  exact ⟨table, List.mem_of_find?_eq_some hFind, by
    simpa using List.find?_some hFind⟩

/- An item is only added to a table that is there. -/
theorem table_of_addItem
    {tableId valueId : Int}
    {now : Cell}
    {id : Int}
    (hAdd : contents.addItem tableId valueId now =
      .ok (id, after)) :
    (contents.table? tableId).isSome := by
  unfold addItem at hAdd
  split at hAdd
  · simp [clash] at hAdd
  · split at hAdd
    · simp [dangling] at hAdd
    · rename_i hThere
      cases hFind : contents.table? tableId with
      | none => simp [hFind] at hThere
      | some row => rfl

/- Tables are added, -/
theorem addTable
    (hFormed : contents.Formed)
    {name : String}
    {numeric : Bool}
    {id : Int}
    (hAdd : contents.addTable name numeric =
      .ok (id, after)) :
    after.Formed := by
  rcases addTable_eq_ok hAdd with ⟨-, hId, rfl⟩
  have hKept (new : Table) {id : Int}
      (hTable : ∃ table ∈ contents.tables.rows,
        table.id = id) :
      ∃ table ∈ (contents.tables.push new).rows,
        table.id = id := by
    rcases hTable with ⟨table, hTable, hOwner⟩
    exact ⟨table, mem_push_iff.2 (Or.inl hTable), hOwner⟩
  exact { hFormed with
    tables := hFormed.tables.push hId
    attributeTables := fun attr_ hAttr =>
      hKept _ (hFormed.attributeTables attr_ hAttr)
    itemTables := fun item hItem =>
      hKept _ (hFormed.itemTables item hItem) }

/- attributes of tables that are there, -/
theorem addAttribute
    (hFormed : contents.Formed)
    {tableId : Int}
    {name : String}
    {numeric : Bool}
    {id : Int}
    (hAdd : contents.addAttribute tableId name numeric =
      .ok (id, after)) :
    after.Formed := by
  rcases addAttribute_eq_ok hAdd with ⟨-, hTable, hId, rfl⟩
  refine { hFormed with
    attributes := hFormed.attributes.push hId
    attributeTables := fun attr_ hAttr => ?_ }
  rcases mem_push_iff.1 hAttr with hOld | rfl
  · exact hFormed.attributeTables attr_ hOld
  · exact exists_table hTable

/- values in their normal form, -/
theorem addValue
    (hFormed : contents.Formed)
    {content : Scalar}
    {id : Int}
    (hAdd : contents.addValue content = .ok (id, after)) :
    after.Formed := by
  rcases addValue_eq_ok hAdd with ⟨-, hId, rfl⟩
  refine { hFormed with
    values := hFormed.values.push hId
    normalized := fun value hValue => ?_ }
  rcases mem_push_iff.1 hValue with hOld | rfl
  · exact hFormed.normalized value hOld
  · exact Scalar.normalized_normalized _

/- items of tables that are there, -/
theorem addItem
    (hFormed : contents.Formed)
    {tableId valueId : Int}
    {now : Cell}
    {id : Int}
    (hAdd : contents.addItem tableId valueId now =
      .ok (id, after)) :
    after.Formed := by
  have hTable := table_of_addItem hAdd
  rcases addItem_eq_ok hAdd with ⟨-, hId, rfl⟩
  refine { hFormed with
    items := hFormed.items.push hId
    itemTables := fun item hItem => ?_
    slotItems := fun slot hSlot => ?_ }
  · rcases mem_push_iff.1 hItem with hOld | rfl
    · exact hFormed.itemTables item hOld
    · exact exists_table hTable
  · have hOld := hFormed.slotItems slot hSlot
    simp only [Register.push]
    omega

/- and slots of items that were. -/
theorem addSlot
    (hFormed : contents.Formed)
    {slot : Slot}
    (hGiven : slot.itemId ≤ contents.items.last) :
    (contents.addSlot slot).2.Formed := by
  rw [addSlot_eq]
  refine { hFormed with
    slotItems := fun other hOther => ?_ }
  simp only [Contents.addSlot] at hOther
  split at hOther
  · exact hFormed.slotItems other hOther
  · rcases List.mem_append.1 hOther with hOld | hNew
    · exact hFormed.slotItems other hOld
    · rw [List.mem_singleton.1 hNew]
      exact hGiven

/- Only tables are removed that nothing belongs to. -/
theorem removeTables
    (hFormed : contents.Formed)
    {doomed : Int → Bool}
    {count : Nat}
    (hRemove : contents.removeTables doomed =
      .ok (count, after)) :
    after.Formed := by
  rcases removeTables_eq_ok hRemove with ⟨hFree, rfl⟩
  refine { hFormed with
    tables := hFormed.tables.remove _
    attributeTables := fun attr_ hAttr => ?_
    itemTables := fun item hItem => ?_ }
  · rcases hFormed.attributeTables attr_ hAttr with
      ⟨table, hTable, hOwner⟩
    refine ⟨table, mem_remove_iff.2
      ⟨hTable, Bool.eq_false_iff.2 fun hGone => ?_⟩, hOwner⟩
    exact (hFree table hTable hGone).1 attr_ hAttr
      hOwner.symm
  · rcases hFormed.itemTables item hItem with
      ⟨table, hTable, hOwner⟩
    refine ⟨table, mem_remove_iff.2
      ⟨hTable, Bool.eq_false_iff.2 fun hGone => ?_⟩, hOwner⟩
    exact (hFree table hTable hGone).2 item hItem
      hOwner.symm

/- Every statement of which the store keeps track. -/
theorem effect
    (hFormed : contents.Formed)
    {clock : Clock}
    {asked : Statement}
    (hEffect : asked.Effect clock contents after)
    (hSlot : ∀ slot, asked = .addSlot slot →
      slot.itemId ≤ contents.items.last) :
    after.Formed := by
  cases hEffect with
  | same => exact hFormed
  | addTable hAdd => exact hFormed.addTable hAdd
  | addAttribute hAdd => exact hFormed.addAttribute hAdd
  | addValue hAdd => exact hFormed.addValue hAdd
  | addItem hAdd => exact hFormed.addItem hAdd
  | addSlot slot => exact hFormed.addSlot (hSlot slot rfl)
  | touch id =>
      rw [touch_eq]
      refine { hFormed with
        items := hFormed.items.map (id_touched id _)
        itemTables := fun item hItem => ?_ }
      rcases List.mem_map.1 hItem with ⟨old, hOld, rfl⟩
      rw [tableId_touched]
      exact hFormed.itemTables old hOld
  | removeItems doomed =>
      exact { hFormed with
        items := hFormed.items.remove _
        itemTables := fun item hItem =>
          hFormed.itemTables item
            (List.mem_of_mem_filter hItem) }
  | removeSlots doomed =>
      exact { hFormed with
        slotItems := fun slot hSlot =>
          hFormed.slotItems slot
            (List.mem_of_mem_filter hSlot) }
  | removeTable hRemove | removeTables hRemove =>
      exact hFormed.removeTables hRemove
  | removeAttributesOf | removeAttributes =>
      exact { hFormed with
        attributes := hFormed.attributes.remove _
        attributeTables := fun attr_ hAttr =>
          hFormed.attributeTables attr_
            (List.mem_of_mem_filter hAttr) }
  | removeValues hRemove =>
      rcases removeValues_eq_ok hRemove with ⟨-, rfl⟩
      exact { hFormed with
        values := hFormed.values.remove _
        normalized := fun value hValue =>
          hFormed.normalized value
            (List.mem_of_mem_filter hValue) }

end Formed

end Contents

------------------------------------------------------------
-- Statements that spare the dictionaries
------------------------------------------------------------

/- All rows of the dictionaries are kept. -/
structure Contents.Retains (before after : Contents) :
    Prop where
  tables : ∀ row ∈ before.tables.rows,
    row ∈ after.tables.rows
  attributes : ∀ row ∈ before.attributes.rows,
    row ∈ after.attributes.rows
  values : ∀ row ∈ before.values.rows,
    row ∈ after.values.rows

theorem Contents.Retains.refl (contents : Contents) :
    contents.Retains contents :=
  ⟨fun _ hRow => hRow, fun _ hRow => hRow,
    fun _ hRow => hRow⟩

theorem Contents.Retains.trans
    {first second third : Contents}
    (hFirst : first.Retains second)
    (hSecond : second.Retains third) :
    first.Retains third :=
  ⟨fun row hRow => hSecond.tables row
      (hFirst.tables row hRow),
    fun row hRow => hSecond.attributes row
      (hFirst.attributes row hRow),
    fun row hRow => hSecond.values row
      (hFirst.values row hRow)⟩

theorem Contents.Retains.ofGrows
    {before after : Contents}
    (hGrows : before.Grows after) :
    before.Retains after :=
  ⟨fun _ => hGrows.tables.mem,
    fun _ => hGrows.attributes.mem,
    fun _ => hGrows.values.mem⟩

namespace Statement

/- Statements that remove nothing from the dictionaries. -/
def Leaves : Statement → Prop
  | removeTable _ | removeTables => False
  | removeAttributesOf _ | removeAttributes => False
  | removeValues => False
  | _ => True

/-
  Statements that remove nothing from the dictionaries and
  add no slot.
-/
def Spares : Statement → Prop
  | addSlot _ => False
  | removeTable _ | removeTables => False
  | removeAttributesOf _ | removeAttributes => False
  | removeValues => False
  | _ => True

theorem Spares.leaves
    {asked : Statement}
    (hSpares : asked.Spares) :
    asked.Leaves := by
  cases asked <;> first | exact hSpares | trivial

variable {clock : Clock} {before after : Contents}
variable {asked : Statement}

namespace Effect

/- No statement gives out an identity twice. -/
theorem ages (hEffect : asked.Effect clock before after) :
    before.Ages after := by
  cases hEffect with
  | same => exact .refl before
  | addTable hAdd => exact (Contents.addTable_grows hAdd).ages
  | addAttribute hAdd =>
      exact (Contents.addAttribute_grows hAdd).ages
  | addValue hAdd => exact (Contents.addValue_grows hAdd).ages
  | addItem hAdd => exact (Contents.addItem_grows hAdd).ages
  | addSlot slot =>
      rw [before.addSlot_eq slot]
      exact { Contents.Ages.refl before with }
  | touch id => exact before.ages_touch id clock.cell
  | removeItems doomed =>
      exact { Contents.Ages.refl before with
        items := .remove _ _ }
  | removeSlots doomed =>
      exact { Contents.Ages.refl before with }
  | removeTable hRemove | removeTables hRemove =>
      exact Contents.ages_removeTables hRemove
  | removeAttributesOf | removeAttributes =>
      exact { Contents.Ages.refl before with
        attributes := .remove _ _ }
  | removeValues hRemove =>
      rcases Contents.removeValues_eq_ok hRemove with ⟨-, rfl⟩
      exact { Contents.Ages.refl before with
        values := .remove _ _ }

/- Statements that remove tables are named. -/
theorem mem_tables
    (hEffect : asked.Effect clock before after)
    {row : Table}
    (hRow : row ∈ before.tables.rows) :
    row ∈ after.tables.rows ∨
      (∃ id, asked = .removeTable id) ∨
        asked = .removeTables := by
  cases hEffect with
  | addTable hAdd =>
      exact Or.inl
        ((Contents.addTable_grows hAdd).tables.mem hRow)
  | addAttribute hAdd =>
      exact Or.inl
        ((Contents.addAttribute_grows hAdd).tables.mem hRow)
  | addValue hAdd =>
      exact Or.inl
        ((Contents.addValue_grows hAdd).tables.mem hRow)
  | addItem hAdd =>
      exact Or.inl
        ((Contents.addItem_grows hAdd).tables.mem hRow)
  | addSlot slot =>
      rw [Contents.addSlot_eq]
      exact Or.inl hRow
  | removeTable => exact Or.inr (Or.inl ⟨_, rfl⟩)
  | removeTables => exact Or.inr (Or.inr rfl)
  | removeValues hRemove =>
      rcases Contents.removeValues_eq_ok hRemove with ⟨-, rfl⟩
      exact Or.inl hRow
  | same | touch | removeItems | removeSlots =>
      exact Or.inl hRow
  | removeAttributesOf | removeAttributes =>
      exact Or.inl hRow

/- So are those that remove attributes. -/
theorem mem_attributes
    (hEffect : asked.Effect clock before after)
    {row : Attribute}
    (hRow : row ∈ before.attributes.rows) :
    row ∈ after.attributes.rows ∨
      asked = .removeAttributesOf row.tableId ∨
        asked = .removeAttributes := by
  cases hEffect with
  | addTable hAdd =>
      exact Or.inl
        ((Contents.addTable_grows hAdd).attributes.mem hRow)
  | addAttribute hAdd =>
      exact Or.inl
        ((Contents.addAttribute_grows hAdd).attributes.mem hRow)
  | addValue hAdd =>
      exact Or.inl
        ((Contents.addValue_grows hAdd).attributes.mem hRow)
  | addItem hAdd =>
      exact Or.inl
        ((Contents.addItem_grows hAdd).attributes.mem hRow)
  | addSlot slot =>
      rw [Contents.addSlot_eq]
      exact Or.inl hRow
  | removeTable hRemove | removeTables hRemove =>
      rcases Contents.removeTables_eq_ok hRemove with ⟨-, rfl⟩
      exact Or.inl hRow
  | removeAttributesOf tableId =>
      by_cases hTable : row.tableId = tableId
      · exact Or.inr (Or.inl (hTable ▸ rfl))
      · exact Or.inl (Contents.mem_remove_iff.2
          ⟨hRow, by simpa using hTable⟩)
  | removeAttributes => exact Or.inr (Or.inr rfl)
  | removeValues hRemove =>
      rcases Contents.removeValues_eq_ok hRemove with ⟨-, rfl⟩
      exact Or.inl hRow
  | same | touch | removeItems | removeSlots =>
      exact Or.inl hRow

/- And the one that removes values. -/
theorem mem_values
    (hEffect : asked.Effect clock before after)
    {row : Value}
    (hRow : row ∈ before.values.rows) :
    row ∈ after.values.rows ∨ asked = .removeValues := by
  cases hEffect with
  | addTable hAdd =>
      exact Or.inl
        ((Contents.addTable_grows hAdd).values.mem hRow)
  | addAttribute hAdd =>
      exact Or.inl
        ((Contents.addAttribute_grows hAdd).values.mem hRow)
  | addValue hAdd =>
      exact Or.inl
        ((Contents.addValue_grows hAdd).values.mem hRow)
  | addItem hAdd =>
      exact Or.inl
        ((Contents.addItem_grows hAdd).values.mem hRow)
  | addSlot slot =>
      rw [Contents.addSlot_eq]
      exact Or.inl hRow
  | removeTable hRemove | removeTables hRemove =>
      rcases Contents.removeTables_eq_ok hRemove with ⟨-, rfl⟩
      exact Or.inl hRow
  | removeValues => exact Or.inr rfl
  | same | touch | removeItems | removeSlots =>
      exact Or.inl hRow
  | removeAttributesOf | removeAttributes =>
      exact Or.inl hRow

/- All others keep the rows of the dictionaries. -/
theorem retains
    (hEffect : asked.Effect clock before after)
    (hLeaves : asked.Leaves) :
    before.Retains after where
  tables row hRow := by
    rcases hEffect.mem_tables hRow with hKept |
      ⟨_, rfl⟩ | rfl
    · exact hKept
    · cases hLeaves
    · cases hLeaves
  attributes row hRow := by
    rcases hEffect.mem_attributes hRow with hKept |
      rfl | rfl
    · exact hKept
    · cases hLeaves
    · cases hLeaves
  values row hRow := by
    rcases hEffect.mem_values hRow with hKept | rfl
    · exact hKept
    · cases hLeaves

/- Slots are only added by the statement that adds one. -/
theorem mem_slots
    (hEffect : asked.Effect clock before after)
    {slot : Slot}
    (hSlot : slot ∈ after.slots) :
    slot ∈ before.slots ∨ asked = .addSlot slot := by
  cases hEffect with
  | addSlot added =>
      simp only [Contents.addSlot] at hSlot
      split at hSlot
      · exact Or.inl hSlot
      · rcases List.mem_append.1 hSlot with hOld | hNew
        · exact Or.inl hOld
        · rw [List.mem_singleton.1 hNew]
          exact Or.inr rfl
  | same | touch | removeItems => exact Or.inl hSlot
  | addTable hAdd =>
      exact Or.inl ((Contents.addTable_grows hAdd).slots ▸
        hSlot)
  | addAttribute hAdd =>
      exact Or.inl ((Contents.addAttribute_grows hAdd).slots ▸
        hSlot)
  | addValue hAdd =>
      exact Or.inl ((Contents.addValue_grows hAdd).slots ▸
        hSlot)
  | addItem hAdd =>
      exact Or.inl ((Contents.addItem_grows hAdd).slots ▸
        hSlot)
  | removeSlots => exact Or.inl (List.mem_of_mem_filter hSlot)
  | removeTable hRemove | removeTables hRemove =>
      rcases Contents.removeTables_eq_ok hRemove with ⟨-, rfl⟩
      exact Or.inl hSlot
  | removeAttributesOf | removeAttributes => exact Or.inl hSlot
  | removeValues hRemove =>
      rcases Contents.removeValues_eq_ok hRemove with ⟨-, rfl⟩
      exact Or.inl hSlot

/- The times of items are from before or the current time. -/
theorem times_of_mem
    (hEffect : asked.Effect clock before after)
    {item : ItemRow}
    (hItem : item ∈ after.items.rows) :
    (∃ old ∈ before.items.rows, item.created = old.created ∧
      (item.modified = old.modified ∨
        item.modified = clock.cell)) ∨
    (item.created = clock.cell ∧
      item.modified = clock.cell) := by
  have hKept (hSame : item ∈ before.items.rows) :
      ∃ old ∈ before.items.rows,
        item.created = old.created ∧
          (item.modified = old.modified ∨
            item.modified = clock.cell) :=
    ⟨item, hSame, rfl, .inl rfl⟩
  cases hEffect with
  | addItem hAdd =>
      rcases Contents.addItem_eq_ok hAdd with ⟨-, -, rfl⟩
      rcases Contents.mem_push_iff.1 hItem with hOld | rfl
      · exact .inl (hKept hOld)
      · exact .inr ⟨rfl, rfl⟩
  | touch id =>
      rw [Contents.touch_eq] at hItem
      rcases List.mem_map.1 hItem with ⟨old, hOld, rfl⟩
      refine .inl ⟨old, hOld, ?_⟩
      unfold Contents.touched
      split
      · exact ⟨rfl, .inr rfl⟩
      · exact ⟨rfl, .inl rfl⟩
  | removeItems =>
      exact .inl (hKept (List.mem_of_mem_filter hItem))
  | addTable hAdd =>
      rcases Contents.addTable_eq_ok hAdd with ⟨-, -, rfl⟩
      exact .inl (hKept hItem)
  | addAttribute hAdd =>
      rcases Contents.addAttribute_eq_ok hAdd with
        ⟨-, -, -, rfl⟩
      exact .inl (hKept hItem)
  | addValue hAdd =>
      rcases Contents.addValue_eq_ok hAdd with ⟨-, -, rfl⟩
      exact .inl (hKept hItem)
  | addSlot slot =>
      rw [Contents.addSlot_eq] at hItem
      exact .inl (hKept hItem)
  | removeTable hRemove | removeTables hRemove =>
      rcases Contents.removeTables_eq_ok hRemove with ⟨-, rfl⟩
      exact .inl (hKept hItem)
  | removeValues hRemove =>
      rcases Contents.removeValues_eq_ok hRemove with ⟨-, rfl⟩
      exact .inl (hKept hItem)
  | same | removeSlots => exact .inl (hKept hItem)
  | removeAttributesOf | removeAttributes =>
      exact .inl (hKept hItem)

end Effect

end Statement

end SparseTables
