import SparseTables.Proofs.Contents.Growth

/-
  This file shows that rows can be added to sound contents:
  the contents stay sound and grow, and the new row is found
  by what it is unique by.

  Main declarations:
    * `Contents.Sound.addTable`
    * `Contents.Sound.addAttribute`
    * `Contents.Sound.addValue`
    * `Contents.Sound.addItem`
-/

namespace SparseTables

namespace Contents

variable {contents after : Contents}

------------------------------------------------------------
-- New rows
------------------------------------------------------------

/- A new row keeps keys unique if its key is new. -/
theorem nodup_map_push
    {ρ κ : Type}
    {register : Register ρ}
    {key : ρ → κ}
    {new : ρ}
    (hNodup : (register.rows.map key).Nodup)
    (hFresh : ∀ row ∈ register.rows, key row ≠ key new) :
    ((register.push new).rows.map key).Nodup := by
  simp only [Register.push, List.map_append,
    List.map_cons, List.map_nil]
  apply List.Nodup.append hNodup
    (List.nodup_singleton _)
  rw [List.disjoint_singleton]
  intro hMem
  rcases List.mem_map.1 hMem with ⟨row, hRow, hSame⟩
  exact hFresh row hRow hSame

theorem mem_push_iff
    {ρ : Type}
    {register : Register ρ}
    {new row : ρ} :
    row ∈ (register.push new).rows ↔
      row ∈ register.rows ∨ row = new := by
  simp [Register.push]

------------------------------------------------------------
-- Tables
------------------------------------------------------------

theorem addTable_eq_ok
    {name : String}
    {numeric : Bool}
    {id : Int}
    (hAdd : contents.addTable name numeric =
      .ok (id, after)) :
    contents.tableNamed? name = none ∧
      id = contents.tables.last + 1 ∧
      after =
        { contents with
          tables := contents.tables.push
            ⟨id, name, numeric⟩ } := by
  unfold addTable at hAdd
  split at hAdd
  · simp [clash] at hAdd
  · rename_i hNone
    simp only [Except.ok.injEq, Prod.mk.injEq] at hAdd
    rcases hAdd with ⟨rfl, rfl⟩
    exact ⟨by simpa using hNone, rfl, rfl⟩

theorem addTable_grows
    {name : String}
    {numeric : Bool}
    {id : Int}
    (hAdd : contents.addTable name numeric =
      .ok (id, after)) :
    contents.Grows after := by
  rcases addTable_eq_ok hAdd with ⟨-, hId, rfl⟩
  exact { Grows.refl contents with tables := .push hId }

namespace Sound

theorem addTable
    (hSound : contents.Sound)
    {name : String}
    {numeric : Bool}
    {id : Int}
    (hAdd : contents.addTable name numeric =
      .ok (id, after)) :
    after.Sound ∧ contents.Grows after ∧
      after.tableNamed? name = some ⟨id, name, numeric⟩ := by
  rcases addTable_eq_ok hAdd with ⟨hNone, hId, hAfter⟩
  have hGrows := addTable_grows hAdd
  have hFresh : ∀ row ∈ contents.tables.rows,
      row.name ≠ name := by
    intro row hRow hName
    have hFind :=
      hSound.tableNamed?_eq_some_iff.2 ⟨hRow, hName⟩
    rw [hNone] at hFind
    cases hFind
  have hAfterSound : after.Sound := by
    subst hAfter
    exact { hSound with
      tables := hSound.tables.push hId
      tableNames := nodup_map_push hSound.tableNames hFresh
      attributeTables := by
        intro attr_ hAttr
        rcases hSound.attributeTables attr_ hAttr with
          ⟨table, hTable, hOwner⟩
        exact ⟨table, hGrows.tables.mem hTable, hOwner⟩
      itemsFit := fun item hItem =>
        hGrows.itemFits (hSound.itemsFit item hItem)
      slotsFit := fun slot hSlot =>
        hGrows.slotFits (hSound.slotItems slot hSlot)
          (hSound.slotsFit slot hSlot) }
  refine ⟨hAfterSound, hGrows, ?_⟩
  rw [hAfterSound.tableNamed?_eq_some_iff, hAfter]
  exact ⟨mem_push_iff.2 (Or.inr rfl), rfl⟩

end Sound

------------------------------------------------------------
-- Attributes
------------------------------------------------------------

theorem addAttribute_eq_ok
    {tableId : Int}
    {name : String}
    {numeric : Bool}
    {id : Int}
    (hAdd : contents.addAttribute tableId name numeric =
      .ok (id, after)) :
    contents.attributeNamed? tableId name = none ∧
      (contents.table? tableId).isSome ∧
      id = contents.attributes.last + 1 ∧
      after =
        { contents with
          attributes := contents.attributes.push
            ⟨id, tableId, name, numeric⟩ } := by
  unfold addAttribute at hAdd
  split at hAdd
  · simp [clash] at hAdd
  · rename_i hNone
    split at hAdd
    · simp [dangling] at hAdd
    · rename_i hTable
      simp only [Except.ok.injEq, Prod.mk.injEq] at hAdd
      rcases hAdd with ⟨rfl, rfl⟩
      refine ⟨by simpa using hNone, ?_, rfl, rfl⟩
      cases hFind : contents.table? tableId with
      | none => simp [hFind] at hTable
      | some row => rfl

theorem addAttribute_grows
    {tableId : Int}
    {name : String}
    {numeric : Bool}
    {id : Int}
    (hAdd : contents.addAttribute tableId name numeric =
      .ok (id, after)) :
    contents.Grows after := by
  rcases addAttribute_eq_ok hAdd with ⟨-, -, hId, rfl⟩
  exact { Grows.refl contents with attributes := .push hId }

namespace Sound

theorem addAttribute
    (hSound : contents.Sound)
    {tableId : Int}
    {name : String}
    {numeric : Bool}
    {id : Int}
    (hAdd : contents.addAttribute tableId name numeric =
      .ok (id, after)) :
    after.Sound ∧ contents.Grows after ∧
      after.attributeNamed? tableId name =
        some ⟨id, tableId, name, numeric⟩ := by
  rcases addAttribute_eq_ok hAdd with
    ⟨hNone, hTable, hId, hAfter⟩
  have hGrows := addAttribute_grows hAdd
  have hFresh : ∀ row ∈ contents.attributes.rows,
      (row.tableId, row.name) ≠ (tableId, name) := by
    intro row hRow hKey
    simp only [Prod.mk.injEq] at hKey
    have hFind :=
      hSound.attributeNamed?_eq_some_iff.2 ⟨hRow, hKey⟩
    rw [hNone] at hFind
    cases hFind
  rcases Option.isSome_iff_exists.1 hTable with
    ⟨table, hTable⟩
  rw [hSound.table?_eq_some_iff] at hTable
  have hAfterSound : after.Sound := by
    subst hAfter
    exact { hSound with
      attributes := hSound.attributes.push hId
      attributeNames :=
        nodup_map_push hSound.attributeNames hFresh
      attributeTables := by
        intro attr_ hAttr
        rcases mem_push_iff.1 hAttr with hOld | hNew
        · exact hSound.attributeTables attr_ hOld
        · exact ⟨table, hTable.1, by rw [hNew, hTable.2]⟩
      slotsFit := fun slot hSlot =>
        hGrows.slotFits (hSound.slotItems slot hSlot)
          (hSound.slotsFit slot hSlot) }
  refine ⟨hAfterSound, hGrows, ?_⟩
  rw [hAfterSound.attributeNamed?_eq_some_iff, hAfter]
  exact ⟨mem_push_iff.2 (Or.inr rfl), rfl, rfl⟩

end Sound

------------------------------------------------------------
-- Values
------------------------------------------------------------

theorem addValue_eq_ok
    {content : Scalar}
    {id : Int}
    (hAdd : contents.addValue content = .ok (id, after)) :
    contents.valueOf? content = none ∧
      id = contents.values.last + 1 ∧
      after =
        { contents with
          values := contents.values.push
            ⟨id, content.normalized⟩ } := by
  unfold addValue at hAdd
  split at hAdd
  · simp [clash] at hAdd
  · rename_i hNone
    simp only [Except.ok.injEq, Prod.mk.injEq] at hAdd
    rcases hAdd with ⟨rfl, rfl⟩
    exact ⟨by simpa using hNone, rfl, rfl⟩

theorem addValue_grows
    {content : Scalar}
    {id : Int}
    (hAdd : contents.addValue content = .ok (id, after)) :
    contents.Grows after := by
  rcases addValue_eq_ok hAdd with ⟨-, hId, rfl⟩
  exact { Grows.refl contents with values := .push hId }

namespace Sound

theorem addValue
    (hSound : contents.Sound)
    {content : Scalar}
    (hStorable : content.isStorable)
    {id : Int}
    (hAdd : contents.addValue content = .ok (id, after)) :
    after.Sound ∧ contents.Grows after ∧
      after.valueOf? content =
        some ⟨id, content.normalized⟩ := by
  rcases addValue_eq_ok hAdd with ⟨hNone, hId, hAfter⟩
  have hGrows := addValue_grows hAdd
  have hFresh : ∀ row ∈ contents.values.rows,
      row.content ≠ content.normalized := by
    intro row hRow hSame
    have hFind :=
      hSound.valueOf?_eq_some_iff.2 ⟨hRow, hSame⟩
    rw [hNone] at hFind
    cases hFind
  have hAfterSound : after.Sound := by
    subst hAfter
    exact { hSound with
      values := hSound.values.push hId
      valueContents :=
        nodup_map_push hSound.valueContents hFresh
      normalized := by
        intro value hValue
        rcases mem_push_iff.1 hValue with hOld | hNew
        · exact hSound.normalized value hOld
        · rw [hNew, Scalar.normalized_normalized]
      storable := by
        intro value hValue
        rcases mem_push_iff.1 hValue with hOld | hNew
        · exact hSound.storable value hOld
        · rwa [hNew, Scalar.isStorable_normalized]
      itemsFit := fun item hItem =>
        hGrows.itemFits (hSound.itemsFit item hItem)
      slotsFit := fun slot hSlot =>
        hGrows.slotFits (hSound.slotItems slot hSlot)
          (hSound.slotsFit slot hSlot) }
  refine ⟨hAfterSound, hGrows, ?_⟩
  rw [hAfterSound.valueOf?_eq_some_iff, hAfter]
  exact ⟨mem_push_iff.2 (Or.inr rfl), rfl⟩

end Sound

------------------------------------------------------------
-- Items
------------------------------------------------------------

theorem addItem_eq_ok
    {tableId valueId : Int}
    {now : Cell}
    {id : Int}
    (hAdd : contents.addItem tableId valueId now =
      .ok (id, after)) :
    contents.itemOf? tableId valueId = none ∧
      id = contents.items.last + 1 ∧
      after =
        { contents with
          items := contents.items.push
            ⟨id, tableId, valueId, now, now⟩ } := by
  unfold addItem at hAdd
  split at hAdd
  · simp [clash] at hAdd
  · rename_i hNone
    split at hAdd
    · simp [dangling] at hAdd
    · simp only [Except.ok.injEq, Prod.mk.injEq] at hAdd
      rcases hAdd with ⟨rfl, rfl⟩
      exact ⟨by simpa using hNone, rfl, rfl⟩

theorem addItem_grows
    {tableId valueId : Int}
    {now : Cell}
    {id : Int}
    (hAdd : contents.addItem tableId valueId now =
      .ok (id, after)) :
    contents.Grows after := by
  rcases addItem_eq_ok hAdd with ⟨-, hId, rfl⟩
  exact { Grows.refl contents with items := .push hId }

namespace Sound

/- An item can be added if its key is of its table's kind. -/
theorem addItem
    (hSound : contents.Sound)
    {table : Table}
    {key : Value}
    (hTable : table ∈ contents.tables.rows)
    (hKey : key ∈ contents.values.rows)
    (hKind : key.content.isNumeric = table.numeric)
    {now : Cell}
    {id : Int}
    (hAdd : contents.addItem table.id key.id now =
      .ok (id, after)) :
    after.Sound ∧ contents.Grows after ∧
      after.itemOf? table.id key.id =
        some ⟨id, table.id, key.id, now, now⟩ := by
  rcases addItem_eq_ok hAdd with ⟨hNone, hId, hAfter⟩
  have hGrows := addItem_grows hAdd
  have hFresh : ∀ row ∈ contents.items.rows,
      (row.tableId, row.valueId) ≠ (table.id, key.id) := by
    intro row hRow hSame
    simp only [Prod.mk.injEq] at hSame
    have hFind :=
      hSound.itemOf?_eq_some_iff.2 ⟨hRow, hSame⟩
    rw [hNone] at hFind
    cases hFind
  have hAfterSound : after.Sound := by
    subst hAfter
    exact { hSound with
      items := hSound.items.push hId
      itemKeys := nodup_map_push hSound.itemKeys hFresh
      itemsFit := by
        intro item hItem
        rcases mem_push_iff.1 hItem with hOld | hNew
        · exact hSound.itemsFit item hOld
        · exact ⟨table, hTable, key, hKey, by rw [hNew],
            by rw [hNew], hKind⟩
      slotsFit := fun slot hSlot =>
        hGrows.slotFits (hSound.slotItems slot hSlot)
          (hSound.slotsFit slot hSlot)
      slotItems := by
        intro slot hSlot
        exact Int.le_trans (hSound.slotItems slot hSlot)
          hGrows.items.last }
  refine ⟨hAfterSound, hGrows, ?_⟩
  rw [hAfterSound.itemOf?_eq_some_iff, hAfter]
  exact ⟨mem_push_iff.2 (Or.inr rfl), rfl, rfl⟩

end Sound

end Contents

end SparseTables
