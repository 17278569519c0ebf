import SparseTables.Proofs.Contents.Formed

/-
  This file shows that contents stay keyed whatever is done
  to them: a row is only added if its key is new, and all
  other statements keep the keys of the rows that they leave.

  Main declarations:
    * `Contents.Keyed.addTable`
    * `Contents.Keyed.addAttribute`
    * `Contents.Keyed.addValue`
    * `Contents.Keyed.addItem`
    * `Contents.Keyed.effect`
-/

namespace SparseTables

namespace Contents

namespace Keyed

variable {contents after : Contents}

------------------------------------------------------------
-- New rows
------------------------------------------------------------

theorem addTable
    (hKeyed : contents.Keyed)
    {name : String}
    {numeric : Bool}
    {id : Int}
    (hAdd : contents.addTable name numeric =
      .ok (id, after)) :
    after.Keyed := by
  rcases addTable_eq_ok hAdd with ⟨hNone, hId, rfl⟩
  refine { hKeyed with
    tables := hKeyed.tables.push hId
    tableNames := nodup_map_push hKeyed.tableNames ?_ }
  intro row hRow hName
  have hFind := hKeyed.tableNamed?_eq_some_iff.2
    ⟨hRow, hName⟩
  rw [hNone] at hFind
  cases hFind

theorem addAttribute
    (hKeyed : contents.Keyed)
    {tableId : Int}
    {name : String}
    {numeric : Bool}
    {id : Int}
    (hAdd : contents.addAttribute tableId name numeric =
      .ok (id, after)) :
    after.Keyed := by
  rcases addAttribute_eq_ok hAdd with ⟨hNone, -, hId, rfl⟩
  refine { hKeyed with
    attributes := hKeyed.attributes.push hId
    attributeNames :=
      nodup_map_push hKeyed.attributeNames ?_ }
  intro row hRow hKey
  have hFind := hKeyed.attributeNamed?_eq_some_iff.2
    ⟨hRow, Prod.mk.inj hKey⟩
  rw [hNone] at hFind
  cases hFind

theorem addValue
    (hKeyed : contents.Keyed)
    {content : Scalar}
    {id : Int}
    (hAdd : contents.addValue content = .ok (id, after)) :
    after.Keyed := by
  rcases addValue_eq_ok hAdd with ⟨hNone, hId, rfl⟩
  refine { hKeyed with
    values := hKeyed.values.push hId
    valueContents := nodup_map_push hKeyed.valueContents ?_
    normalized := fun value hValue => ?_ }
  · intro row hRow hSame
    have hFind := hKeyed.valueOf?_eq_some_iff.2
      ⟨hRow, hSame⟩
    rw [hNone] at hFind
    cases hFind
  · rcases mem_push_iff.1 hValue with hOld | rfl
    · exact hKeyed.normalized value hOld
    · exact Scalar.normalized_normalized _

theorem addItem
    (hKeyed : contents.Keyed)
    {tableId valueId : Int}
    {now : Cell}
    {id : Int}
    (hAdd : contents.addItem tableId valueId now =
      .ok (id, after)) :
    after.Keyed := by
  rcases addItem_eq_ok hAdd with ⟨hNone, hId, rfl⟩
  refine { hKeyed with
    items := hKeyed.items.push hId
    itemKeys := nodup_map_push hKeyed.itemKeys ?_ }
  intro row hRow hKey
  have hFind := hKeyed.itemOf?_eq_some_iff.2
    ⟨hRow, Prod.mk.inj hKey⟩
  rw [hNone] at hFind
  cases hFind

------------------------------------------------------------
-- Other changes
------------------------------------------------------------

/- The time of the last change is not part of a key. -/
theorem touch
    (hKeyed : contents.Keyed)
    (id : Int)
    (now : Cell) :
    (contents.touch id now).2.Keyed := by
  rw [touch_eq]
  refine { hKeyed with
    items := hKeyed.items.map (id_touched id now)
    itemKeys := ?_ }
  have hSame : (contents.items.rows.map (touched id now)).map
      (fun row => (row.tableId, row.valueId)) =
        contents.items.rows.map fun row =>
          (row.tableId, row.valueId) := by
    simp [Function.comp_def]
  exact hSame ▸ hKeyed.itemKeys

/- Contents stay keyed with every statement. -/
theorem effect
    (hKeyed : contents.Keyed)
    {clock : Clock}
    {asked : Statement}
    (hEffect : asked.Effect clock contents after) :
    after.Keyed := by
  cases hEffect with
  | same => exact hKeyed
  | addTable hAdd => exact hKeyed.addTable hAdd
  | addAttribute hAdd => exact hKeyed.addAttribute hAdd
  | addValue hAdd => exact hKeyed.addValue hAdd
  | addItem hAdd => exact hKeyed.addItem hAdd
  | addSlot slot =>
      rw [addSlot_eq]
      exact { hKeyed with }
  | touch id => exact hKeyed.touch id clock.cell
  | removeItems doomed =>
      exact { hKeyed with
        items := hKeyed.items.remove _
        itemKeys := nodup_map_filter hKeyed.itemKeys _ }
  | removeSlots doomed => exact { hKeyed with }
  | removeTable hRemove | removeTables hRemove =>
      rcases removeTables_eq_ok hRemove with ⟨-, rfl⟩
      exact { hKeyed with
        tables := hKeyed.tables.remove _
        tableNames := nodup_map_filter hKeyed.tableNames _ }
  | removeAttributesOf | removeAttributes =>
      exact { hKeyed with
        attributes := hKeyed.attributes.remove _
        attributeNames :=
          nodup_map_filter hKeyed.attributeNames _ }
  | removeValues hRemove =>
      rcases removeValues_eq_ok hRemove with ⟨-, rfl⟩
      exact { hKeyed with
        values := hKeyed.values.remove _
        valueContents :=
          nodup_map_filter hKeyed.valueContents _
        normalized := fun value hValue =>
          hKeyed.normalized value
            (List.mem_of_mem_filter hValue) }

end Keyed

end Contents

end SparseTables
