import SparseTables.Proofs.Contents.Removals
import SparseTables.Session.Items

/-
  This file shows what a change of an item does to the
  contents: its slots are replaced or erased one after
  another, and the time of its last change is set.

  Nothing else changes, and the contents stay sound if the
  changes are for attributes of the item's table and give
  values of their kinds.

  Main declarations:
    * `Contents.applyChanges`
    * `Contents.ChangeFits`
    * `Contents.Sound.applyChanges`
    * `Contents.slotsOf_applyChanges_of_ne`
    * `Contents.Sound.slot?_applyChange`
    * `Contents.Sound.touch`
-/

namespace SparseTables

namespace Contents

variable {contents : Contents}

------------------------------------------------------------
-- Times of changes
------------------------------------------------------------

/- An item with the time of its last change set, if meant. -/
def touched (id : Int) (now : Cell) (item : ItemRow) :
    ItemRow :=
  if item.id == id then { item with modified := now } else item

theorem touch_eq
    (contents : Contents)
    (id : Int)
    (now : Cell) :
    (contents.touch id now).2 =
      { contents with
        items :=
          { contents.items with
            rows := contents.items.rows.map
              (touched id now) } } :=
  rfl

@[simp] theorem core_touched
    (id : Int)
    (now : Cell)
    (item : ItemRow) :
    (touched id now item).core = item.core := by
  unfold touched
  split <;> rfl

@[simp] theorem id_touched
    (id : Int)
    (now : Cell)
    (item : ItemRow) :
    (touched id now item).id = item.id :=
  congrArg Prod.fst (core_touched id now item)

@[simp] theorem tableId_touched
    (id : Int)
    (now : Cell)
    (item : ItemRow) :
    (touched id now item).tableId = item.tableId :=
  congrArg (fun core => core.2.1) (core_touched id now item)

@[simp] theorem valueId_touched
    (id : Int)
    (now : Cell)
    (item : ItemRow) :
    (touched id now item).valueId = item.valueId :=
  congrArg (fun core => core.2.2.1)
    (core_touched id now item)

theorem touched_of_ne
    {id : Int}
    {now : Cell}
    {item : ItemRow}
    (hOther : item.id ≠ id) :
    touched id now item = item := by
  simp [touched, hOther]

theorem touched_of_eq
    {id : Int}
    {now : Cell}
    {item : ItemRow}
    (hSame : item.id = id) :
    touched id now item = { item with modified := now } := by
  simp [touched, hSame]

/- An item that is there is counted once. -/
theorem touch_count
    {item : ItemRow}
    (hItem : item ∈ contents.items.rows)
    (now : Cell) :
    (contents.touch item.id now).1 ≠ 0 := by
  have hPositive :
      0 < contents.items.rows.countP fun row =>
        row.id == item.id :=
    List.countP_pos_iff.2 ⟨item, hItem, by simp⟩
  exact Nat.pos_iff_ne_zero.1 hPositive

theorem Sound.touch
    (hSound : contents.Sound)
    (id : Int)
    (now : Cell) :
    (contents.touch id now).2.Sound := by
  rw [touch_eq]
  exact { hSound with
    items := hSound.items.map (id_touched id now)
    itemKeys := by
      simpa [List.map_map, Function.comp_def] using
        hSound.itemKeys
    itemsFit := by
      intro item hItem
      rcases List.mem_map.1 hItem with ⟨old, hOld, rfl⟩
      simpa [ItemFits] using hSound.itemsFit old hOld
    slotsFit := by
      intro slot hSlot
      rcases hSound.slotsFit slot hSlot with
        ⟨attr_, hAttr, value, hValue, hAttrId, hValueId,
          hKind, hOwner⟩
      refine ⟨attr_, hAttr, value, hValue, hAttrId,
        hValueId, hKind, ?_⟩
      intro item hItem
      rcases List.mem_map.1 hItem with ⟨old, hOld, rfl⟩
      simpa using hOwner old hOld }

theorem ages_touch
    (contents : Contents)
    (id : Int)
    (now : Cell) :
    contents.Ages (contents.touch id now).2 :=
  { Ages.refl contents with
    items := .map _ (core_touched id now) }

------------------------------------------------------------
-- Changes of slots
------------------------------------------------------------

/- Is a slot the one of an item for an attribute? -/
def isSlot (itemId attributeId : Int) (slot : Slot) : Bool :=
  slot.itemId == itemId && slot.attributeId == attributeId

/- Adding a slot touches nothing but slots. -/
theorem addSlot_eq (contents : Contents) (slot : Slot) :
    (contents.addSlot slot).2 =
      { contents with
        slots := (contents.addSlot slot).2.slots } := by
  unfold addSlot
  split <;> rfl

/- Replace or erase a slot of an item. -/
def applyChange
    (itemId : Int)
    (contents : Contents)
    (change : SlotChange) : Contents :=
  let cleared :=
    (contents.removeSlots
      (isSlot itemId change.attributeId)).2
  match change.valueId with
  | some valueId =>
      (cleared.addSlot
        ⟨itemId, change.attributeId, valueId⟩).2
  | none => cleared

/- Replace or erase slots of an item, one after another. -/
def applyChanges
    (contents : Contents)
    (itemId : Int)
    (changes : List SlotChange) : Contents :=
  changes.foldl (applyChange itemId) contents

/- The slots that a change leaves. -/
def changedSlots
    (slots : List Slot)
    (itemId : Int)
    (change : SlotChange) : List Slot :=
  slots.filter (fun slot =>
    !isSlot itemId change.attributeId slot) ++
    (change.valueId.map fun valueId =>
      ⟨itemId, change.attributeId, valueId⟩).toList

/- A change touches nothing but slots. -/
theorem applyChange_eq
    (itemId : Int)
    (contents : Contents)
    (change : SlotChange) :
    applyChange itemId contents change =
      { contents with
        slots := changedSlots contents.slots itemId
          change } := by
  unfold applyChange changedSlots
  cases change.valueId with
  | none => simp [removeSlots]
  | some valueId =>
      have hNone :
          (contents.removeSlots
            (isSlot itemId change.attributeId)).2.slot?
              itemId change.attributeId = none := by
        rw [slot?, List.find?_eq_none]
        intro slot hSlot
        have hKept := List.of_mem_filter hSlot
        simpa only [isSlot, Bool.not_eq_true',
          Bool.not_eq_true] using hKept
      simp only [addSlot, hNone]
      simp [removeSlots]

/- What a change must refer to. -/
def ChangeFits
    (contents : Contents)
    (tableId : Int)
    (change : SlotChange) : Prop :=
  ∃ attr_ ∈ contents.attributes.rows,
    attr_.id = change.attributeId ∧
      attr_.tableId = tableId ∧
      ∀ valueId ∈ change.valueId,
        ∃ value ∈ contents.values.rows,
          value.id = valueId ∧
            value.content.isNumeric = attr_.numeric

theorem Grows.changeFits
    {after : Contents}
    (hGrows : contents.Grows after)
    {tableId : Int}
    {change : SlotChange}
    (hFits : contents.ChangeFits tableId change) :
    after.ChangeFits tableId change := by
  rcases hFits with ⟨attr_, hAttr, hId, hOwner, hValues⟩
  refine ⟨attr_, hGrows.attributes.mem hAttr, hId, hOwner,
    ?_⟩
  intro valueId hValueId
  rcases hValues valueId hValueId with ⟨value, hValue, hRest⟩
  exact ⟨value, hGrows.values.mem hValue, hRest⟩

namespace Sound

theorem applyChange
    (hSound : contents.Sound)
    {item : ItemRow}
    (hItem : item ∈ contents.items.rows)
    {change : SlotChange}
    (hFits : contents.ChangeFits item.tableId change) :
    (Contents.applyChange item.id contents change).Sound := by
  rw [applyChange_eq]
  have hCases : ∀ slot ∈ changedSlots contents.slots item.id
      change, slot ∈ contents.slots ∨
        slot.itemId = item.id ∧
          slot.attributeId = change.attributeId ∧
          change.valueId = some slot.valueId := by
    intro slot hSlot
    rcases List.mem_append.1 hSlot with hOld | hNew
    · exact Or.inl (List.mem_of_mem_filter hOld)
    · rcases Option.map_eq_some_iff.1
        (Option.mem_toList.1 hNew) with
        ⟨valueId, hValueId, rfl⟩
      exact Or.inr ⟨rfl, rfl, hValueId⟩
  exact { hSound with
    slotKeys := by
      rw [changedSlots, List.map_append]
      apply List.Nodup.append
        (nodup_map_filter hSound.slotKeys _)
      · cases change.valueId <;> simp
      · intro key hOld hNew
        rcases List.mem_map.1 hOld with ⟨old, hMem, rfl⟩
        rcases List.mem_map.1 hNew with ⟨new, hNew, hKey⟩
        rcases Option.map_eq_some_iff.1
          (Option.mem_toList.1 hNew) with ⟨valueId, -, rfl⟩
        have hKept := List.of_mem_filter hMem
        simp_all [isSlot]
    slotsFit := by
      intro slot hSlot
      rcases hCases slot hSlot with hOld |
        ⟨hOwner, hAttrId, hValueId⟩
      · exact hSound.slotsFit slot hOld
      · rcases hFits with ⟨attr_, hAttr, hId, hTable, hValues⟩
        rcases hValues slot.valueId hValueId with
          ⟨value, hValue, hSame, hKind⟩
        refine ⟨attr_, hAttr, value, hValue,
          hId.trans hAttrId.symm, hSame, hKind, ?_⟩
        intro other hOther hOtherId
        rw [hSound.items.eq_of_id hOther hItem
          (hOtherId.trans hOwner), hTable]
    slotItems := by
      intro slot hSlot
      rcases hCases slot hSlot with hOld | ⟨hOwner, _⟩
      · exact hSound.slotItems slot hOld
      · rw [hOwner]
        exact hSound.items.bounded item hItem }

end Sound

/- Clearing a slot leaves the others where they are. -/
theorem find?_isSlot_cleared
    (slots : List Slot)
    (itemId cleared attributeId : Int) :
    (slots.filter fun slot =>
        !isSlot itemId cleared slot).find?
          (isSlot itemId attributeId) =
      if attributeId = cleared then
        none
      else
        slots.find? (isSlot itemId attributeId) := by
  by_cases hSame : attributeId = cleared
  · rw [if_pos hSame, List.find?_eq_none]
    intro slot hSlot
    have hKept := List.of_mem_filter hSlot
    simpa [hSame] using hKept
  · rw [if_neg hSame]
    induction slots with
    | nil => rfl
    | cons slot rest ih =>
        by_cases hCleared : isSlot itemId cleared slot
        · have hOther :
              isSlot itemId attributeId slot = false := by
            simp only [isSlot, Bool.and_eq_true,
              beq_iff_eq] at hCleared
            simp only [isSlot, hCleared.2,
              Bool.and_eq_false_iff, beq_eq_false_iff_ne]
            exact Or.inr fun hEq => hSame hEq.symm
          simp [hCleared, hOther, ih]
        · simp [hCleared, List.find?_cons, ih]

/- The slot that is found after a change. -/
theorem slot?_applyChange
    (contents : Contents)
    (itemId : Int)
    (change : SlotChange)
    (attributeId : Int) :
    (applyChange itemId contents change).slot? itemId
        attributeId =
      if attributeId = change.attributeId then
        change.valueId.map fun valueId =>
          ⟨itemId, attributeId, valueId⟩
      else
        contents.slot? itemId attributeId := by
  have hFind (contents : Contents) :
      contents.slot? itemId attributeId =
        contents.slots.find? (isSlot itemId attributeId) :=
    rfl
  rw [applyChange_eq, hFind, hFind, changedSlots,
    List.find?_append, find?_isSlot_cleared]
  by_cases hSame : attributeId = change.attributeId
  · rw [if_pos hSame, if_pos hSame, hSame]
    cases change.valueId <;> simp [isSlot]
  · rw [if_neg hSame, if_neg hSame]
    have hDiffers : change.attributeId ≠ attributeId :=
      fun hEq => hSame hEq.symm
    cases change.valueId <;> simp [isSlot, hDiffers]

/- The slots of other items stay as they are. -/
theorem slotsOf_applyChange_of_ne
    (contents : Contents)
    {itemId other : Int}
    (hOther : other ≠ itemId)
    (change : SlotChange) :
    (applyChange itemId contents change).slotsOf other =
      contents.slotsOf other := by
  have hSame :
      (changedSlots contents.slots itemId change).filter
          (fun slot => slot.itemId == other) =
        contents.slots.filter fun slot =>
          slot.itemId == other := by
    have hNew :
        ((change.valueId.map fun valueId =>
          (⟨itemId, change.attributeId, valueId⟩ :
            Slot)).toList.filter fun slot =>
              slot.itemId == other) = [] := by
      cases change.valueId <;> simp [hOther.symm]
    rw [changedSlots, List.filter_append, hNew,
      List.append_nil, List.filter_filter]
    refine List.filter_congr fun slot _ => ?_
    by_cases hSlot : slot.itemId = other
    · simp [hSlot, isSlot, hOther]
    · simp [hSlot]
  rw [applyChange_eq, slotsOf, slotsOf]
  simp only [hSame]

------------------------------------------------------------
-- Several changes
------------------------------------------------------------

/- Changes touch nothing but slots, and depend on slots. -/
theorem applyChanges_eq
    (contents : Contents)
    (itemId : Int)
    (changes : List SlotChange) :
    contents.applyChanges itemId changes =
      { contents with
        slots := changes.foldl
          (fun slots change =>
            changedSlots slots itemId change)
          contents.slots } := by
  induction changes generalizing contents with
  | nil => rfl
  | cons change rest ih =>
      rw [applyChanges, List.foldl_cons, ← applyChanges, ih,
        applyChange_eq, List.foldl_cons]

@[simp] theorem attributes_applyChanges
    (contents : Contents)
    (itemId : Int)
    (changes : List SlotChange) :
    (contents.applyChanges itemId changes).attributes =
      contents.attributes := by
  rw [applyChanges_eq]

@[simp] theorem values_applyChanges
    (contents : Contents)
    (itemId : Int)
    (changes : List SlotChange) :
    (contents.applyChanges itemId changes).values =
      contents.values := by
  rw [applyChanges_eq]

@[simp] theorem items_applyChanges
    (contents : Contents)
    (itemId : Int)
    (changes : List SlotChange) :
    (contents.applyChanges itemId changes).items =
      contents.items := by
  rw [applyChanges_eq]

/- The last change is made after the others. -/
theorem applyChanges_concat
    (contents : Contents)
    (itemId : Int)
    (changes : List SlotChange)
    (change : SlotChange) :
    contents.applyChanges itemId (changes ++ [change]) =
      applyChange itemId
        (contents.applyChanges itemId changes) change := by
  rw [applyChanges, List.foldl_append]
  rfl

/- New rows stay new when the same changes are made. -/
theorem Grows.applyChanges
    {after : Contents}
    (hGrows : contents.Grows after)
    (itemId : Int)
    (changes : List SlotChange) :
    (contents.applyChanges itemId changes).Grows
      (after.applyChanges itemId changes) := by
  rw [applyChanges_eq, applyChanges_eq, hGrows.slots]
  exact { hGrows with slots := rfl }

/- Changes of an item's slots keep the contents sound. -/
theorem Sound.applyChanges
    (hSound : contents.Sound)
    {item : ItemRow}
    (hItem : item ∈ contents.items.rows)
    {changes : List SlotChange}
    (hFits : ∀ change ∈ changes,
      contents.ChangeFits item.tableId change) :
    (contents.applyChanges item.id changes).Sound := by
  induction changes generalizing contents with
  | nil => exact hSound
  | cons change rest ih =>
      rw [Contents.applyChanges, List.foldl_cons,
        ← Contents.applyChanges]
      have hFirst := hSound.applyChange hItem
        (hFits change List.mem_cons_self)
      apply ih hFirst
      · rw [applyChange_eq]
        exact hItem
      · intro later hLater
        rw [applyChange_eq]
        exact hFits later (List.mem_cons_of_mem _ hLater)

theorem slotsOf_applyChanges_of_ne
    (contents : Contents)
    {itemId other : Int}
    (hOther : other ≠ itemId)
    (changes : List SlotChange) :
    (contents.applyChanges itemId changes).slotsOf other =
      contents.slotsOf other := by
  induction changes generalizing contents with
  | nil => rfl
  | cons change rest ih =>
      rw [applyChanges, List.foldl_cons, ← applyChanges, ih,
        slotsOf_applyChange_of_ne contents hOther]

end Contents

end SparseTables
