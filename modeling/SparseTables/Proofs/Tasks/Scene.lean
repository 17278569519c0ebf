import SparseTables.Proofs.Contents.Formed
import SparseTables.Proofs.Session.Mirrors

/-
  This file describes the store as one task sees it while
  others use it as well, and what one task knows that no other
  can take from it.

  A table is doomed once a task removes what belongs to it: if
  that task succeeds the table will be gone.  What is known of
  a table's attributes and of values holds until the table is
  doomed.

  Main declarations:
    * `Scene`
    * `Scene.Becomes`
    * `Scene.KnowsItem`
    * `Scene.KnowsAttribute`
    * `Scene.KnowsValue`
    * `Scene.Fits`
    * `Scene.Covers`
    * `Scene.Covers.later`
-/

namespace SparseTables

/- What is committed, and what is on its way out. -/
structure Scene where
  contents : Contents
  formed : contents.Formed
  /- Will a table be gone unless its removal fails? -/
  doomed : Int → Prop
  /- Is every dictionary being emptied? -/
  wiped : Prop
  doomed_of_wiped : wiped → ∀ tableId, doomed tableId

/- The caches mirror contents that lose no row. -/
theorem Caches.Mirrors.retains
    {caches : Caches}
    {before after : Contents}
    (hMirrors : caches.Mirrors before)
    (hRetains : before.Retains after) :
    caches.Mirrors after where
  tables := hMirrors.tables.mono hRetains.tables
  attributes := hMirrors.attributes.mono hRetains.attributes
  values pair hPair :=
    hRetains.values _ (hMirrors.values pair hPair)

namespace Scene

------------------------------------------------------------
-- What others can do
------------------------------------------------------------

/-
  No identity is given out twice, and rows of dictionaries go
  only with doomed tables.
-/
structure Becomes (before after : Scene) : Prop where
  ages : before.contents.Ages after.contents
  doomed : ∀ tableId ≤ before.contents.tables.last,
    before.doomed tableId → after.doomed tableId
  attributes : ∀ row ∈ before.contents.attributes.rows,
    row ∈ after.contents.attributes.rows ∨
      after.doomed row.tableId
  values : ∀ row ∈ before.contents.values.rows,
    row ∈ after.contents.values.rows ∨
      ∀ tableId ≤ before.contents.tables.last,
        after.doomed tableId

namespace Becomes

variable {first second third : Scene}

theorem refl (scene : Scene) : scene.Becomes scene :=
  ⟨.refl _, fun _ _ hDoomed => hDoomed,
    fun _ hRow => Or.inl hRow, fun _ hRow => Or.inl hRow⟩

theorem last_le
    (hBecomes : first.Becomes second)
    {tableId : Int}
    (hTable : tableId ≤ first.contents.tables.last) :
    tableId ≤ second.contents.tables.last :=
  Int.le_trans hTable hBecomes.ages.tables.last

theorem trans
    (hFirst : first.Becomes second)
    (hSecond : second.Becomes third) :
    first.Becomes third where
  ages := hFirst.ages.trans hSecond.ages
  doomed tableId hTable hDoomed :=
    hSecond.doomed tableId (hFirst.last_le hTable)
      (hFirst.doomed tableId hTable hDoomed)
  attributes row hRow := by
    have hTable := first.formed.attribute_le hRow
    rcases hFirst.attributes row hRow with hKept | hDoomed
    · exact hSecond.attributes row hKept
    · exact Or.inr (hSecond.doomed _ (hFirst.last_le hTable)
        hDoomed)
  values row hRow := by
    rcases hFirst.values row hRow with hKept | hDoomed
    · rcases hSecond.values row hKept with hStill | hDoomed
      · exact Or.inl hStill
      · exact Or.inr fun tableId hTable =>
          hDoomed tableId (hFirst.last_le hTable)
    · exact Or.inr fun tableId hTable =>
        hSecond.doomed tableId (hFirst.last_le hTable)
          (hDoomed tableId hTable)

end Becomes

------------------------------------------------------------
-- What a task knows
------------------------------------------------------------

/- An identity that was given to a table. -/
def KnowsTable (scene : Scene) (tableId : Int) : Prop :=
  tableId ≤ scene.contents.tables.last

/- An attribute of a table, while the table is not doomed. -/
def KnowsAttribute
    (scene : Scene)
    (tableId attributeId : Int) : Prop :=
  scene.doomed tableId ∨
    ∃ row ∈ scene.contents.attributes.rows,
      row.id = attributeId ∧ row.tableId = tableId

/- A value, while the table it is for is not doomed. -/
def KnowsValue
    (scene : Scene)
    (tableId valueId : Int) : Prop :=
  scene.doomed tableId ∨
    ∃ row ∈ scene.contents.values.rows, row.id = valueId

/- The identity of an item of a table, if it still exists. -/
structure KnowsItem
    (scene : Scene)
    (tableId itemId : Int) : Prop where
  given : itemId ≤ scene.contents.items.last
  owner : ∀ item ∈ scene.contents.items.rows,
    item.id = itemId → item.tableId = tableId

/-
  A slot whose item, if it exists, has its attribute and its
  value, unless the table of the item is doomed.
-/
structure Fits (scene : Scene) (slot : Slot) : Prop where
  given : slot.itemId ≤ scene.contents.items.last
  known : ∀ item ∈ scene.contents.items.rows,
    item.id = slot.itemId →
      scene.KnowsAttribute item.tableId slot.attributeId ∧
        scene.KnowsValue item.tableId slot.valueId

theorem KnowsItem.fits
    {scene : Scene}
    {tableId : Int}
    {slot : Slot}
    (hItem : scene.KnowsItem tableId slot.itemId)
    (hAttr : scene.KnowsAttribute tableId slot.attributeId)
    (hValue : scene.KnowsValue tableId slot.valueId) :
    scene.Fits slot where
  given := hItem.given
  known item hMem hId := by
    rw [hItem.owner item hMem hId]
    exact ⟨hAttr, hValue⟩

namespace Becomes

variable {before after : Scene} {tableId : Int}

/- An item under an identity that was given is an old one. -/
theorem exists_item
    (hBecomes : before.Becomes after)
    {item : ItemRow}
    (hItem : item ∈ after.contents.items.rows)
    (hGiven : item.id ≤ before.contents.items.last) :
    ∃ old ∈ before.contents.items.rows,
      old.id = item.id ∧ old.tableId = item.tableId := by
  rcases List.mem_map.1
    (hBecomes.ages.items.rows item hItem hGiven) with
    ⟨old, hOld, hCore⟩
  simp only [ItemRow.core, Prod.mk.injEq] at hCore
  exact ⟨old, hOld, hCore.1, hCore.2.1⟩

theorem knowsTable
    (hBecomes : before.Becomes after)
    (hTable : before.KnowsTable tableId) :
    after.KnowsTable tableId :=
  hBecomes.last_le hTable

theorem knowsAttribute
    (hBecomes : before.Becomes after)
    (hTable : before.KnowsTable tableId)
    {attributeId : Int}
    (hAttr : before.KnowsAttribute tableId attributeId) :
    after.KnowsAttribute tableId attributeId := by
  rcases hAttr with hDoomed | ⟨row, hRow, rfl, rfl⟩
  · exact Or.inl (hBecomes.doomed tableId hTable hDoomed)
  · rcases hBecomes.attributes row hRow with hKept | hDoomed
    · exact Or.inr ⟨row, hKept, rfl, rfl⟩
    · exact Or.inl hDoomed

theorem knowsValue
    (hBecomes : before.Becomes after)
    (hTable : before.KnowsTable tableId)
    {valueId : Int}
    (hValue : before.KnowsValue tableId valueId) :
    after.KnowsValue tableId valueId := by
  rcases hValue with hDoomed | ⟨row, hRow, rfl⟩
  · exact Or.inl (hBecomes.doomed tableId hTable hDoomed)
  · rcases hBecomes.values row hRow with hKept | hDoomed
    · exact Or.inr ⟨row, hKept, rfl⟩
    · exact Or.inl (hDoomed tableId hTable)

theorem knowsItem
    (hBecomes : before.Becomes after)
    {itemId : Int}
    (hItem : before.KnowsItem tableId itemId) :
    after.KnowsItem tableId itemId where
  given := Int.le_trans hItem.given hBecomes.ages.items.last
  owner item hMem hId := by
    rcases hBecomes.exists_item hMem (hId ▸ hItem.given) with
      ⟨old, hOld, hSame, hTable⟩
    rw [← hTable]
    exact hItem.owner old hOld (hSame.trans hId)

theorem fits
    (hBecomes : before.Becomes after)
    {slot : Slot}
    (hFits : before.Fits slot) :
    after.Fits slot where
  given := Int.le_trans hFits.given hBecomes.ages.items.last
  known item hMem hId := by
    rcases hBecomes.exists_item hMem (hId ▸ hFits.given) with
      ⟨old, hOld, hSame, hTable⟩
    rcases hFits.known old hOld (hSame.trans hId) with
      ⟨hAttr, hValue⟩
    have hGiven := before.formed.item_le hOld
    rw [hTable] at hAttr hValue hGiven
    exact ⟨hBecomes.knowsAttribute hGiven hAttr,
      hBecomes.knowsValue hGiven hValue⟩

end Becomes

------------------------------------------------------------
-- What the caches may hold
------------------------------------------------------------

/-
  All rows of the store, and rows that are gone for a reason:
  their table is doomed, or everything is.
-/
structure Covers (scene : Scene) (whole : Contents) :
    Prop where
  retains : scene.contents.Retains whole
  tables : ∀ row ∈ whole.tables.rows,
    scene.KnowsTable row.id
  attributes : ∀ row ∈ whole.attributes.rows,
    scene.KnowsTable row.tableId ∧
      (row ∈ scene.contents.attributes.rows ∨
        scene.doomed row.tableId)
  values : ∀ row ∈ whole.values.rows,
    row ∈ scene.contents.values.rows ∨ scene.wiped

theorem covers_contents (scene : Scene) :
    scene.Covers scene.contents where
  retains := .refl _
  tables := scene.formed.tables.bounded
  attributes _ hRow :=
    ⟨scene.formed.attribute_le hRow, Or.inl hRow⟩
  values _ hRow := Or.inl hRow

namespace Covers

variable {scene : Scene} {whole : Contents}

theorem knowsAttribute
    (hCovers : scene.Covers whole)
    {row : Attribute}
    (hRow : row ∈ whole.attributes.rows) :
    scene.KnowsAttribute row.tableId row.id := by
  rcases (hCovers.attributes row hRow).2 with hKept | hDoomed
  · exact Or.inr ⟨row, hKept, rfl, rfl⟩
  · exact Or.inl hDoomed

theorem knowsValue
    (hCovers : scene.Covers whole)
    {row : Value}
    (hRow : row ∈ whole.values.rows)
    (tableId : Int) :
    scene.KnowsValue tableId row.id := by
  rcases hCovers.values row hRow with hKept | hWiped
  · exact Or.inr ⟨row, hKept, rfl⟩
  · exact Or.inl (scene.doomed_of_wiped hWiped tableId)

end Covers

/- The rows of two dictionaries together. -/
def joined (whole contents : Contents) : Contents :=
  { whole with
    tables :=
      { whole.tables with
        rows := whole.tables.rows ++ contents.tables.rows }
    attributes :=
      { whole.attributes with
        rows :=
          whole.attributes.rows ++ contents.attributes.rows }
    values :=
      { whole.values with
        rows := whole.values.rows ++ contents.values.rows } }

theorem retains_joined (whole contents : Contents) :
    whole.Retains (joined whole contents) :=
  ⟨fun _ hRow => List.mem_append_left _ hRow,
    fun _ hRow => List.mem_append_left _ hRow,
    fun _ hRow => List.mem_append_left _ hRow⟩

/- The caches may go on to hold what they held. -/
theorem Covers.later
    {before after : Scene}
    {whole : Contents}
    (hCovers : before.Covers whole)
    (hBecomes : before.Becomes after)
    (hValues : ∀ row ∈ before.contents.values.rows,
      row ∈ after.contents.values.rows ∨ after.wiped)
    (hWiped : before.wiped → after.wiped) :
    after.Covers (joined whole after.contents) where
  retains :=
    ⟨fun _ hRow => List.mem_append_right _ hRow,
      fun _ hRow => List.mem_append_right _ hRow,
      fun _ hRow => List.mem_append_right _ hRow⟩
  tables row hRow := by
    rcases List.mem_append.1 hRow with hOld | hNew
    · exact hBecomes.knowsTable (hCovers.tables row hOld)
    · exact after.formed.tables.bounded row hNew
  attributes row hRow := by
    rcases List.mem_append.1 hRow with hOld | hNew
    · rcases hCovers.attributes row hOld with
        ⟨hTable, hKept | hDoomed⟩
      · exact ⟨hBecomes.knowsTable hTable,
          hBecomes.attributes row hKept⟩
      · exact ⟨hBecomes.knowsTable hTable,
          Or.inr (hBecomes.doomed _ hTable hDoomed)⟩
    · exact ⟨after.formed.attribute_le hNew, Or.inl hNew⟩
  values row hRow := by
    rcases List.mem_append.1 hRow with hOld | hNew
    · rcases hCovers.values row hOld with hKept | hGone
      · exact hValues row hKept
      · exact Or.inr (hWiped hGone)
    · exact Or.inl hNew

end Scene

end SparseTables
