import SparseTables.Proofs.Contents.Sound

/-
  This file describes how the contents of the store change
  over time.

  Contents grow when rows are added under new identities and
  nothing else happens.  Contents age whatever happens: rows
  come and go, but no identity is given to a second row.

  Main declarations:
    * `Contents.Grows`
    * `Contents.Ages`
    * `Contents.Grows.ages`
    * `Contents.Grows.tableNamed?_eq_some`
    * `Contents.Grows.itemFits`
-/

namespace SparseTables

------------------------------------------------------------
-- Registers
------------------------------------------------------------

namespace Register

variable {ρ σ : Type} {id : ρ → Int} {core : ρ → σ}

/- Rows are added under identities that were not given. -/
structure Grows
    (id : ρ → Int)
    (before after : Register ρ) : Prop where
  last : before.last ≤ after.last
  rows : ∃ more, after.rows = before.rows ++ more ∧
    ∀ row ∈ more, before.last < id row

/-
  A row under an identity that was given before is the row it
  was given to, as far as its core goes.
-/
structure Ages
    (id : ρ → Int)
    (core : ρ → σ)
    (before after : Register ρ) : Prop where
  last : before.last ≤ after.last
  rows : ∀ row ∈ after.rows, id row ≤ before.last →
    core row ∈ before.rows.map core

namespace Grows

variable {first second third : Register ρ}

theorem refl (register : Register ρ) :
    register.Grows id register :=
  ⟨Int.le_refl _, [], by simp⟩

theorem trans
    (hFirst : first.Grows id second)
    (hSecond : second.Grows id third) :
    first.Grows id third := by
  rcases hFirst.rows with ⟨more, hMore, hNew⟩
  rcases hSecond.rows with ⟨further, hFurther, hNewer⟩
  refine ⟨Int.le_trans hFirst.last hSecond.last,
    more ++ further, by rw [hFurther, hMore,
      List.append_assoc], ?_⟩
  intro row hRow
  rcases List.mem_append.1 hRow with hRow | hRow
  · exact hNew row hRow
  · exact Int.lt_of_le_of_lt hFirst.last (hNewer row hRow)

theorem push
    {register : Register ρ}
    {new : ρ}
    (hNew : id new = register.last + 1) :
    register.Grows id (register.push new) := by
  refine ⟨by simp only [Register.push]; omega,
    [new], rfl, ?_⟩
  intro row hRow
  rw [List.mem_singleton.1 hRow, hNew]
  omega

theorem mem
    (hGrows : first.Grows id second)
    {row : ρ}
    (hRow : row ∈ first.rows) :
    row ∈ second.rows := by
  rcases hGrows.rows with ⟨more, hMore, -⟩
  rw [hMore]
  exact List.mem_append_left _ hRow

/- What was found before is found still. -/
theorem find?_eq_some
    (hGrows : first.Grows id second)
    {fits : ρ → Bool}
    {row : ρ}
    (hFind : first.rows.find? fits = some row) :
    second.rows.find? fits = some row := by
  rcases hGrows.rows with ⟨more, hMore, -⟩
  rw [hMore, List.find?_append, hFind]
  rfl

/- A row under an identity that was given is an old row. -/
theorem mem_of_le
    (hGrows : first.Grows id second)
    {row : ρ}
    (hRow : row ∈ second.rows)
    (hId : id row ≤ first.last) :
    row ∈ first.rows := by
  rcases hGrows.rows with ⟨more, hMore, hNew⟩
  rw [hMore] at hRow
  rcases List.mem_append.1 hRow with hRow | hRow
  · exact hRow
  · have hLess := hNew row hRow
    omega

theorem ages
    (hGrows : first.Grows id second) :
    first.Ages id core second :=
  ⟨hGrows.last, fun _ hRow hId =>
    List.mem_map_of_mem (hGrows.mem_of_le hRow hId)⟩

end Grows

namespace Ages

variable {first second third : Register ρ}

theorem trans
    (hCore : ∀ row other, core row = core other →
      id row = id other)
    (hFirst : first.Ages id core second)
    (hSecond : second.Ages id core third) :
    first.Ages id core third := by
  refine ⟨Int.le_trans hFirst.last hSecond.last, ?_⟩
  intro row hRow hId
  rcases List.mem_map.1 (hSecond.rows row hRow (Int.le_trans
    hId hFirst.last)) with ⟨old, hOld, hSame⟩
  rw [← hSame]
  apply hFirst.rows old hOld
  rwa [hCore old row hSame]

theorem remove
    (register : Register ρ)
    (doomed : ρ → Bool) :
    register.Ages id core (register.remove doomed) :=
  ⟨Int.le_refl _, fun _ hRow _ =>
    List.mem_map_of_mem (List.mem_of_mem_filter hRow)⟩

theorem map
    (register : Register ρ)
    {change : ρ → ρ}
    (hChange : ∀ row, core (change row) = core row) :
    register.Ages id core
      { register with rows := register.rows.map change } := by
  refine ⟨Int.le_refl _, ?_⟩
  intro row hRow _
  rcases List.mem_map.1 hRow with ⟨old, hOld, hSame⟩
  rw [← hSame, hChange]
  exact List.mem_map_of_mem hOld

end Ages

end Register

------------------------------------------------------------
-- Contents
------------------------------------------------------------

/- An item without the time of its last change. -/
def ItemRow.core (item : ItemRow) :
    Int × Int × Int × Cell :=
  (item.id, item.tableId, item.valueId, item.created)

namespace Contents

/- Rows are added to dictionaries and items. -/
structure Grows (before after : Contents) : Prop where
  tables : before.tables.Grows Table.id after.tables
  attributes :
    before.attributes.Grows Attribute.id after.attributes
  values : before.values.Grows Value.id after.values
  items : before.items.Grows ItemRow.id after.items
  slots : after.slots = before.slots

/-
  No identity of a table, an attribute, a value or an item is
  given out twice.  Of an item only the time of its last
  change may differ.
-/
structure Ages (before after : Contents) : Prop where
  tables :
    before.tables.Ages Table.id (fun row => row) after.tables
  attributes :
    before.attributes.Ages Attribute.id (fun row => row)
      after.attributes
  values :
    before.values.Ages Value.id (fun row => row) after.values
  items :
    before.items.Ages ItemRow.id ItemRow.core after.items

namespace Grows

variable {first second third : Contents}

theorem refl (contents : Contents) :
    contents.Grows contents :=
  ⟨.refl _, .refl _, .refl _, .refl _, rfl⟩

theorem trans
    (hFirst : first.Grows second)
    (hSecond : second.Grows third) :
    first.Grows third :=
  ⟨hFirst.tables.trans hSecond.tables,
    hFirst.attributes.trans hSecond.attributes,
    hFirst.values.trans hSecond.values,
    hFirst.items.trans hSecond.items,
    hSecond.slots.trans hFirst.slots⟩

theorem ages (hGrows : first.Grows second) :
    first.Ages second :=
  ⟨hGrows.tables.ages, hGrows.attributes.ages,
    hGrows.values.ages, hGrows.items.ages⟩

theorem table?_eq_some
    (hGrows : first.Grows second)
    {key : Int}
    {row : Table}
    (hFind : first.table? key = some row) :
    second.table? key = some row :=
  hGrows.tables.find?_eq_some hFind

theorem tableNamed?_eq_some
    (hGrows : first.Grows second)
    {name : String}
    {row : Table}
    (hFind : first.tableNamed? name = some row) :
    second.tableNamed? name = some row :=
  hGrows.tables.find?_eq_some hFind

theorem attribute?_eq_some
    (hGrows : first.Grows second)
    {key : Int}
    {row : Attribute}
    (hFind : first.attribute? key = some row) :
    second.attribute? key = some row :=
  hGrows.attributes.find?_eq_some hFind

theorem value?_eq_some
    (hGrows : first.Grows second)
    {key : Int}
    {row : Value}
    (hFind : first.value? key = some row) :
    second.value? key = some row :=
  hGrows.values.find?_eq_some hFind

theorem valueOf?_eq_some
    (hGrows : first.Grows second)
    {content : Scalar}
    {row : Value}
    (hFind : first.valueOf? content = some row) :
    second.valueOf? content = some row :=
  hGrows.values.find?_eq_some hFind

/- Items keep what they refer to. -/
theorem itemFits
    (hGrows : first.Grows second)
    {item : ItemRow}
    (hFits : first.ItemFits item) :
    second.ItemFits item := by
  rcases hFits with ⟨table, hTable, key, hKey, hRest⟩
  exact ⟨table, hGrows.tables.mem hTable, key,
    hGrows.values.mem hKey, hRest⟩

/- Slots keep what they refer to: new items have none. -/
theorem slotFits
    (hGrows : first.Grows second)
    {slot : Slot}
    (hItem : slot.itemId ≤ first.items.last)
    (hFits : first.SlotFits slot) :
    second.SlotFits slot := by
  rcases hFits with
    ⟨attr_, hAttr, value, hValue, hAttrId, hValueId, hKind,
      hOwner⟩
  refine ⟨attr_, hGrows.attributes.mem hAttr, value,
    hGrows.values.mem hValue, hAttrId, hValueId, hKind, ?_⟩
  intro item hMem hId
  exact hOwner item
    (hGrows.items.mem_of_le hMem (by omega)) hId

end Grows

namespace Ages

variable {first second third : Contents}

theorem refl (contents : Contents) :
    contents.Ages contents :=
  (Grows.refl contents).ages

theorem trans
    (hFirst : first.Ages second)
    (hSecond : second.Ages third) :
    first.Ages third :=
  ⟨hFirst.tables.trans (fun _ _ h => by rw [h])
      hSecond.tables,
    hFirst.attributes.trans (fun _ _ h => by rw [h])
      hSecond.attributes,
    hFirst.values.trans (fun _ _ h => by rw [h])
      hSecond.values,
    hFirst.items.trans (fun _ _ h => congrArg Prod.fst h)
      hSecond.items⟩

end Ages

end Contents

end SparseTables
