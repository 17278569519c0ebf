import SparseTables.Proofs.Contents.Entries
import SparseTables.Proofs.Session.Defining

/-
  This file shows what a request to define an item does to the
  attributes of all items, by their tables and keys.

  The changes that were found for its entries stand as long
  as no row is removed.  When they are made, the item under
  the key gets what the entries say, on top of what it has
  then, and no other item is touched.

  Main declarations:
    * `Define.IsFor`
    * `Define.apply`
    * `Define.applyAll`
    * `Contents.Extends`
    * `Contents.Applies`
    * `Contents.Sound.extends_of_grows`
    * `Contents.Stands`
    * `Contents.Pending.stands`
    * `Contents.Sound.applies`
-/

namespace SparseTables

------------------------------------------------------------
-- Effects
------------------------------------------------------------

namespace Define

/- Is a request about the item of a table under a key? -/
def IsFor
    (request : Define)
    (table : String)
    (key : Scalar) : Prop :=
  request.table = table ∧
    request.key.normalized = key.normalized

instance
    (request : Define)
    (table : String)
    (key : Scalar) :
    Decidable (request.IsFor table key) :=
  inferInstanceAs (Decidable (_ ∧ _))

/- What a request makes of the attributes of its item. -/
def apply (request : Define) (metadata : Metadata) :
    Metadata :=
  (metadata.setAll request.entries).normalized

/- What requests make of one item, one after another. -/
def applyAll
    (requests : List Define)
    (table : String)
    (key : Scalar)
    (metadata : Metadata) : Metadata :=
  (requests.filter fun request =>
    request.IsFor table key).foldl
      (fun metadata request => request.apply metadata)
      metadata

/- The last request is made after the others. -/
theorem applyAll_concat
    (requests : List Define)
    (request : Define)
    (table : String)
    (key : Scalar)
    (metadata : Metadata) :
    applyAll (requests ++ [request]) table key metadata =
      if request.IsFor table key then
        request.apply (applyAll requests table key metadata)
      else
        applyAll requests table key metadata := by
  unfold applyAll
  split <;> simp [*, List.filter_append, List.foldl_append]

end Define

namespace Contents

/- An item of some identity is the one of a request. -/
def IsItemFor
    (contents : Contents)
    (request : Define)
    (id : Int) : Prop :=
  ∃ item ∈ contents.items.rows, item.id = id ∧
    (∃ table ∈ contents.tables.rows,
      table.id = item.tableId ∧ table.name = request.table) ∧
    ∃ value ∈ contents.values.rows,
      value.id = item.valueId ∧
        value.content = request.key.normalized

/- No row is removed, and no item has other attributes. -/
structure Extends (before after : Contents) : Prop where
  widens : before.Widens after
  slots : after.slots = before.slots
  metadata : ∀ table key,
    after.metadataIn table key = before.metadataIn table key

/- No row is removed, and one item was defined. -/
structure Applies
    (request : Define)
    (before after : Contents) : Prop where
  widens : before.Widens after
  slots : ∀ slot ∈ after.slots,
    slot ∈ before.slots ∨ after.IsItemFor request slot.itemId
  metadata : ∀ table key,
    after.metadataIn table key =
      if request.IsFor table key then
        request.apply (before.metadataIn table key)
      else
        before.metadataIn table key

variable {contents : Contents}

theorem Extends.refl (contents : Contents) :
    contents.Extends contents :=
  ⟨.refl contents, rfl, fun _ _ => rfl⟩

theorem Widens.isItemFor
    {after : Contents}
    (hWidens : contents.Widens after)
    {request : Define}
    {id : Int}
    (hItem : contents.IsItemFor request id) :
    after.IsItemFor request id := by
  rcases hItem with
    ⟨item, hItem, hId, ⟨table, hTable, hOf⟩, value, hValue,
      hKey⟩
  rcases hWidens.items item hItem with ⟨later, hLater, hCore⟩
  cases later
  cases hCore
  exact ⟨_, hLater, hId,
    ⟨table, hWidens.retains.tables table hTable, hOf⟩,
    value, hWidens.retains.values value hValue, hKey⟩

theorem Sound.isItemFor_iff
    (hSound : contents.Sound)
    {request : Define}
    {id : Int} :
    contents.IsItemFor request id ↔
      ∃ item,
        contents.itemIn? request.table request.key =
          some item ∧ item.id = id := by
  simp only [IsItemFor, hSound.itemIn?_eq_some_iff]
  constructor
  · rintro ⟨item, hItem, hId, hUnder⟩
    exact ⟨item, ⟨hItem, hUnder⟩, hId⟩
  · rintro ⟨item, ⟨hItem, hUnder⟩, hId⟩
    exact ⟨item, hItem, hId, hUnder⟩

namespace Sound

/- New rows give no item other attributes. -/
theorem extends_of_grows
    (hSound : contents.Sound)
    {after : Contents}
    (hAfter : after.Sound)
    (hGrows : contents.Grows after) :
    contents.Extends after where
  widens := .ofGrows hGrows
  slots := hGrows.slots
  metadata table key := by
    cases hItem : after.itemIn? table key with
    | some item =>
        rw [← hSound.metadataIn_grows hAfter hGrows hItem,
          metadataIn, hItem]
    | none =>
        cases hOld : contents.itemIn? table key with
        | none => rw [metadataIn, metadataIn, hItem, hOld]
        | some item =>
            have hStill :=
              hSound.itemIn?_grows hAfter hGrows hOld
            rw [hItem] at hStill
            cases hStill

/- An item is under one key of one table. -/
theorem eq_of_itemIn?
    (hSound : contents.Sound)
    {table other : String}
    {key found : Scalar}
    {item : ItemRow}
    (hItem : contents.itemIn? table key = some item)
    (hOther : contents.itemIn? other found = some item) :
    table = other ∧ key.normalized = found.normalized := by
  rcases hSound.itemIn?_eq_some_iff.1 hItem with
    ⟨-, ⟨row, hRow, hRowId, rfl⟩, value, hValue, hValueId,
      hContent⟩
  rcases hSound.itemIn?_eq_some_iff.1 hOther with
    ⟨-, ⟨row', hRow', hRowId', rfl⟩, value', hValue',
      hValueId', hContent'⟩
  have hSameRow := hSound.tables.eq_of_id hRow hRow'
    (hRowId.trans hRowId'.symm)
  have hSameValue := hSound.values.eq_of_id hValue hValue'
    (hValueId.trans hValueId'.symm)
  rw [← hContent, ← hContent', hSameRow, hSameValue]
  exact ⟨rfl, rfl⟩

end Sound

------------------------------------------------------------
-- Changes that stand
------------------------------------------------------------

/-
  A change is what an entry asks for in a table: it names the
  attribute, and the value, if there is to be one.
-/
def Stands
    (contents : Contents)
    (tableId : Int)
    (entry : String × Option Scalar)
    (change : SlotChange) : Prop :=
  ∃ attr_ ∈ contents.attributes.rows,
    attr_.tableId = tableId ∧ attr_.name = entry.1 ∧
      attr_.id = change.attributeId ∧
      match entry.2 with
      | none => change.valueId = none
      | some content =>
          content.isNumeric = attr_.numeric ∧
            ∃ value ∈ contents.values.rows,
              value.content = content.normalized ∧
                change.valueId = some value.id

theorem Widens.stands
    {after : Contents}
    (hWidens : contents.Widens after)
    {tableId : Int}
    {entry : String × Option Scalar}
    {change : SlotChange}
    (hStands : contents.Stands tableId entry change) :
    after.Stands tableId entry change := by
  rcases hStands with
    ⟨attr_, hAttr, hTable, hName, hId, hValue⟩
  refine ⟨attr_, hWidens.retains.attributes attr_ hAttr,
    hTable, hName, hId, ?_⟩
  cases hContent : entry.2 with
  | none => simpa [hContent] using hValue
  | some content =>
      simp only [hContent] at hValue ⊢
      rcases hValue with ⟨hKind, value, hMem, hRest⟩
      exact ⟨hKind, value,
        hWidens.retains.values value hMem, hRest⟩

/- An item is under its key still, unless it was removed. -/
theorem Widens.itemIn?
    {after : Contents}
    (hWidens : contents.Widens after)
    (hSound : contents.Sound)
    (hAfter : after.Sound)
    {table : String}
    {key : Scalar}
    {item : ItemRow}
    (hItem : contents.itemIn? table key = some item) :
    ∃ later, after.itemIn? table key = some later ∧
      later.id = item.id ∧ later.tableId = item.tableId := by
  rcases hSound.itemIn?_eq_some_iff.1 hItem with
    ⟨hMem, ⟨row, hRow, hRowId, hName⟩, value, hValue, hValueId,
      hContent⟩
  rcases hWidens.items item hMem with ⟨later, hLater, hCore⟩
  cases later
  cases hCore
  exact ⟨_, hAfter.itemIn?_eq_some_iff.2 ⟨hLater,
    ⟨row, hWidens.retains.tables row hRow, hRowId, hName⟩,
    value, hWidens.retains.values value hValue, hValueId,
    hContent⟩, rfl, rfl⟩

/- What stands is pending for an item of the table. -/
theorem Pending.stands
    (hSound : contents.Sound)
    {item : ItemRow}
    {changes more : List SlotChange}
    {metadata : Metadata}
    {entries : List (String × Option Scalar)}
    (hPending : contents.Pending item changes metadata)
    (hStands : List.Forall₂ (contents.Stands item.tableId)
      entries more) :
    contents.Pending item (changes ++ more)
      (metadata.setAll entries) := by
  induction hStands generalizing changes metadata with
  | nil => simpa [NameMap.setAll] using hPending
  | @cons entry change entries more hFirst hRest ih =>
      rcases entry with ⟨name, content⟩
      rcases change with ⟨attributeId, valueId⟩
      rcases hFirst with
        ⟨attr_, hAttr, hTable, rfl, rfl, hValue⟩
      rw [List.append_cons, NameMap.setAll, List.foldl_cons]
      refine ih ?_
      cases content with
      | none =>
          cases hValue
          exact hPending.erase hSound hAttr hTable
      | some content =>
          rcases hValue with
            ⟨hKind, value, hMem, hContent, hId⟩
          cases hId
          exact hPending.insert hSound hAttr hTable hMem
            hContent hKind

------------------------------------------------------------
-- Changes that are made
------------------------------------------------------------

section Changed

variable {item : ItemRow} {now : Cell}
variable {changes : List SlotChange}

/- No row is removed when an item changes. -/
theorem widens_changed
    (contents : Contents)
    (id : Int)
    (now : Cell)
    (changes : List SlotChange) :
    contents.Widens
      ((contents.touch id now).2.applyChanges id changes) := by
  rw [applyChanges_eq]
  refine ⟨⟨fun _ hRow => hRow, fun _ hRow => hRow,
    fun _ hRow => hRow⟩, fun item hItem => ?_⟩
  exact ⟨touched id now item, List.mem_map_of_mem hItem,
    core_touched id now item⟩

/- Items are under their keys still. -/
theorem itemIn?_changed
    (contents : Contents)
    (id : Int)
    (now : Cell)
    (changes : List SlotChange)
    (table : String)
    (key : Scalar) :
    ((contents.touch id now).2.applyChanges id
        changes).itemIn? table key =
      (contents.itemIn? table key).map (touched id now) := by
  have hUnder (tableId valueId : Int) :
      ((contents.touch id now).2.applyChanges id
          changes).itemOf? tableId valueId =
        (contents.itemOf? tableId valueId).map
          (touched id now) := by
    simp [itemOf?, applyChanges_eq, touch_eq, List.find?_map,
      Function.comp_def]
  have hTable :
      ((contents.touch id now).2.applyChanges id
          changes).tableNamed? table =
        contents.tableNamed? table := by
    rw [applyChanges_eq]
    rfl
  have hValue :
      ((contents.touch id now).2.applyChanges id
          changes).valueOf? key = contents.valueOf? key := by
    rw [applyChanges_eq]
    rfl
  simp only [itemIn?, itemUnder?, hTable, hValue, hUnder,
    Option.bind_eq_bind, Option.map_bind, Function.comp_def]

/- The item under the key is defined, and no other one. -/
theorem Sound.applies
    (hSound : contents.Sound)
    {request : Define}
    (hItem : contents.itemIn? request.table request.key =
      some item)
    (hStands : List.Forall₂ (contents.Stands item.tableId)
      request.entries changes)
    (now : Cell) :
    contents.Applies request
      ((contents.touch item.id now).2.applyChanges item.id
        changes) where
  widens := widens_changed contents item.id now changes
  slots slot hSlot := by
    by_cases hOf : slot.itemId = item.id
    · rw [hOf]
      refine Or.inr ((widens_changed contents item.id now
        changes).isItemFor ?_)
      exact hSound.isItemFor_iff.2 ⟨item, hItem, rfl⟩
    · refine Or.inl ?_
      have hThere := mem_slotsOf_iff.2 ⟨hSlot, rfl⟩
      rw [slotsOf_applyChanges_of_ne _ hOf] at hThere
      exact (mem_slotsOf_iff.1 hThere).1
  metadata table key := by
    have hMem := (hSound.itemIn?_eq_some_iff.1 hItem).1
    have hPending :=
      (Pending.nil hSound hMem).stands hSound hStands
    rw [metadataIn, itemIn?_changed]
    by_cases hFor : request.IsFor table key
    · have hSame : contents.itemIn? table key = some item := by
        rw [← hItem, ← hFor.1]
        exact (hSound.itemIn?_congr _ hFor.2).symm
      rw [if_pos hFor, metadataIn, hSame]
      simp only [Option.map_some, id_touched]
      rw [metadata_touched]
      exact hPending.shown
    · rw [if_neg hFor, metadataIn]
      cases hOther : contents.itemIn? table key with
      | none => rfl
      | some other =>
          have hThere :=
            (hSound.itemIn?_eq_some_iff.1 hOther).1
          have hId : other.id ≠ item.id := by
            intro hId
            cases hSound.items.eq_of_id hThere hMem hId
            exact hFor (hSound.eq_of_itemIn? hItem hOther)
          have hTouched := keeps_touch hThere hId now
          simp only [Option.map_some, id_touched]
          exact (hTouched.trans (keeps_applyChanges
            hTouched.row hId changes)).metadata

end Changed

end Contents

end SparseTables
