import SparseTables.Proofs.Contents.Removals
import SparseTables.Store.Statement

/-
  This file shifts identities.  Two stores may hold the same
  rows under identities that differ by a fixed number for each
  kind of row.

  What is found in the one is found in the other, and the
  same changes lead from the one to the other again.

  Main declarations:
    * `Shift`
    * `Contents.shifted`
    * `Contents.addItem_shifted`
    * `Contents.removeTables_shifted`
    * `Contents.slotsOf_shifted`
    * `Contents.schemaOf_shifted`
    * `Statement.Twins`
-/

namespace SparseTables

------------------------------------------------------------
-- Rows
------------------------------------------------------------

/- By how much the identities of each kind are larger. -/
structure Shift where
  tables : Int
  attributes : Int
  values : Int
  items : Int

/- Identities are the same if they are so when shifted. -/
theorem beq_shifted (x y by_ : Int) :
    (x + by_ == y + by_) = (x == y) := by
  rw [Bool.eq_iff_iff, beq_iff_eq, beq_iff_eq]
  exact Int.add_left_inj by_

def Table.shifted (shift : Shift) (row : Table) : Table :=
  { row with id := row.id + shift.tables }

def Attribute.shifted
    (shift : Shift)
    (row : Attribute) : Attribute :=
  { row with
    id := row.id + shift.attributes
    tableId := row.tableId + shift.tables }

def Value.shifted (shift : Shift) (row : Value) : Value :=
  { row with id := row.id + shift.values }

def ItemRow.shifted
    (shift : Shift)
    (row : ItemRow) : ItemRow :=
  { row with
    id := row.id + shift.items
    tableId := row.tableId + shift.tables
    valueId := row.valueId + shift.values }

def Slot.shifted (shift : Shift) (slot : Slot) : Slot where
  itemId := slot.itemId + shift.items
  attributeId := slot.attributeId + shift.attributes
  valueId := slot.valueId + shift.values

------------------------------------------------------------
-- Registers
------------------------------------------------------------

namespace Register

variable {ρ σ : Type}

/- The changed rows, and larger identities from now on. -/
def shifted
    (register : Register ρ)
    (change : ρ → σ)
    (by_ : Int) : Register σ :=
  ⟨register.rows.map change, register.last + by_⟩

/- A row that fits the next identity is a changed row. -/
theorem insert_shifted
    (register : Register ρ)
    (change : ρ → σ)
    (by_ : Int)
    (make : Int → ρ)
    (make' : Int → σ)
    (hMake : ∀ id, make' (id + by_) = change (make id)) :
    (register.shifted change by_).insert make' =
      ((register.insert make).1 + by_,
        (register.insert make).2.shifted change by_) := by
  have hNext : register.last + by_ + 1 =
      register.last + 1 + by_ := by
    omega
  simp only [insert, shifted, hNext, hMake, List.map_append,
    List.map_cons, List.map_nil]

theorem remove_shifted
    (register : Register ρ)
    (change : ρ → σ)
    (by_ : Int)
    (doomed : ρ → Bool)
    (doomed' : σ → Bool)
    (hDoomed : ∀ row, doomed' (change row) = doomed row) :
    (register.shifted change by_).remove doomed' =
      (register.remove doomed).shifted change by_ := by
  simp only [remove, shifted, List.filter_map,
    Function.comp_def, hDoomed]

end Register

/- The first of the changed rows is the changed first one. -/
theorem find?_map_of
    {ρ σ : Type}
    {change : ρ → σ}
    {wanted : ρ → Bool}
    {wanted' : σ → Bool}
    (hWanted : ∀ row, wanted' (change row) = wanted row)
    (rows : List ρ) :
    (rows.map change).find? wanted' =
      (rows.find? wanted).map change := by
  rw [List.find?_map]
  congr 2
  funext row
  exact hWanted row

/- What is found under a key that was changed. -/
theorem lookup_map_of
    {κ ρ : Type}
    [BEq κ]
    (onKey : κ → κ)
    (key : κ)
    (hKey : ∀ other, (onKey key == onKey other) =
      (key == other))
    (onRow : ρ → ρ)
    (entries : List (κ × ρ)) :
    (entries.map (Prod.map onKey onRow)).lookup (onKey key) =
      (entries.lookup key).map onRow := by
  induction entries with
  | nil => rfl
  | cons entry rest ih =>
      rcases entry with ⟨other, row⟩
      simp only [List.map_cons, Prod.map, List.lookup_cons,
        hKey]
      split
      · rfl
      · exact ih

------------------------------------------------------------
-- Contents
------------------------------------------------------------

namespace Contents

/- The same rows under larger identities. -/
def shifted (shift : Shift) (contents : Contents) :
    Contents where
  tables :=
    contents.tables.shifted (Table.shifted shift) shift.tables
  attributes :=
    contents.attributes.shifted (Attribute.shifted shift)
      shift.attributes
  values :=
    contents.values.shifted (Value.shifted shift) shift.values
  items :=
    contents.items.shifted (ItemRow.shifted shift) shift.items
  slots := contents.slots.map (Slot.shifted shift)

variable (shift : Shift) (contents : Contents)

------------------------------------------------------------
-- Finding rows
------------------------------------------------------------

theorem tableNamed?_shifted (name : String) :
    (contents.shifted shift).tableNamed? name =
      (contents.tableNamed? name).map (Table.shifted shift) :=
  find?_map_of (fun _ => rfl) _

theorem table?_shifted (id : Int) :
    (contents.shifted shift).table? (id + shift.tables) =
      (contents.table? id).map (Table.shifted shift) :=
  find?_map_of
    (fun _ => by simp only [Table.shifted, beq_shifted]) _

theorem attributeNamed?_shifted
    (tableId : Int)
    (name : String) :
    (contents.shifted shift).attributeNamed?
        (tableId + shift.tables) name =
      (contents.attributeNamed? tableId name).map
        (Attribute.shifted shift) :=
  find?_map_of
    (fun _ => by simp only [Attribute.shifted, beq_shifted]) _

theorem attribute?_shifted (id : Int) :
    (contents.shifted shift).attribute?
        (id + shift.attributes) =
      (contents.attribute? id).map (Attribute.shifted shift) :=
  find?_map_of
    (fun _ => by simp only [Attribute.shifted, beq_shifted]) _

theorem valueOf?_shifted (content : Scalar) :
    (contents.shifted shift).valueOf? content =
      (contents.valueOf? content).map (Value.shifted shift) :=
  find?_map_of (fun _ => rfl) _

theorem value?_shifted (id : Int) :
    (contents.shifted shift).value? (id + shift.values) =
      (contents.value? id).map (Value.shifted shift) :=
  find?_map_of
    (fun _ => by simp only [Value.shifted, beq_shifted]) _

theorem itemOf?_shifted (tableId valueId : Int) :
    (contents.shifted shift).itemOf?
        (tableId + shift.tables) (valueId + shift.values) =
      (contents.itemOf? tableId valueId).map
        (ItemRow.shifted shift) :=
  find?_map_of
    (fun _ => by simp only [ItemRow.shifted, beq_shifted]) _

theorem item?_shifted (id : Int) :
    (contents.shifted shift).item? (id + shift.items) =
      (contents.item? id).map (ItemRow.shifted shift) :=
  find?_map_of
    (fun _ => by simp only [ItemRow.shifted, beq_shifted]) _

theorem slot?_shifted (itemId attributeId : Int) :
    (contents.shifted shift).slot?
        (itemId + shift.items)
        (attributeId + shift.attributes) =
      (contents.slot? itemId attributeId).map
        (Slot.shifted shift) :=
  find?_map_of
    (fun _ => by simp only [Slot.shifted, beq_shifted]) _

/- Slots keep their order. -/
theorem slotsOf_shifted (itemId : Int) :
    (contents.shifted shift).slotsOf (itemId + shift.items) =
      (contents.slotsOf itemId).map (Slot.shifted shift) := by
  have hOwner : ((fun slot : Slot =>
      slot.itemId == itemId + shift.items) ∘
        Slot.shifted shift) =
      fun slot => slot.itemId == itemId := by
    funext slot
    exact beq_shifted _ _ _
  simp only [slotsOf, shifted, List.filter_map, hOwner]
  refine (List.map_mergeSort fun left _ right _ => ?_).symm
  simp [Slot.shifted]

------------------------------------------------------------
-- Adding rows
------------------------------------------------------------

/- An identity with contents, both shifted. -/
def shiftedWith
    (by_ : Int)
    (added : Int × Contents) : Int × Contents :=
  (added.1 + by_, added.2.shifted shift)

theorem addTable_shifted (name : String) (numeric : Bool) :
    (contents.shifted shift).addTable name numeric =
      (contents.addTable name numeric).map
        (shiftedWith shift shift.tables) := by
  have hInsert := contents.tables.insert_shifted
    (Table.shifted shift) shift.tables
    (fun id => ⟨id, name, numeric⟩)
    (fun id => ⟨id, name, numeric⟩) fun _ => rfl
  simp only [addTable, tableNamed?_shifted,
    Option.isSome_map]
  simp only [shifted, hInsert]
  split <;> rfl

theorem addAttribute_shifted
    (tableId : Int)
    (name : String)
    (numeric : Bool) :
    (contents.shifted shift).addAttribute
        (tableId + shift.tables) name numeric =
      (contents.addAttribute tableId name numeric).map
        (shiftedWith shift shift.attributes) := by
  have hInsert := contents.attributes.insert_shifted
    (Attribute.shifted shift) shift.attributes
    (fun id => ⟨id, tableId, name, numeric⟩)
    (fun id => ⟨id, tableId + shift.tables, name, numeric⟩)
    fun _ => rfl
  simp only [addAttribute, attributeNamed?_shifted,
    table?_shifted, Option.isSome_map, Option.isNone_map]
  simp only [shifted, hInsert]
  split
  · rfl
  · split <;> rfl

theorem addValue_shifted (content : Scalar) :
    (contents.shifted shift).addValue content =
      (contents.addValue content).map
        (shiftedWith shift shift.values) := by
  have hInsert := contents.values.insert_shifted
    (Value.shifted shift) shift.values
    (fun id => ⟨id, content.normalized⟩)
    (fun id => ⟨id, content.normalized⟩) fun _ => rfl
  simp only [addValue, valueOf?_shifted, Option.isSome_map]
  simp only [shifted, hInsert]
  split <;> rfl

theorem addItem_shifted
    (tableId valueId : Int)
    (now : Cell) :
    (contents.shifted shift).addItem
        (tableId + shift.tables) (valueId + shift.values)
        now =
      (contents.addItem tableId valueId now).map
        (shiftedWith shift shift.items) := by
  have hInsert := contents.items.insert_shifted
    (ItemRow.shifted shift) shift.items
    (fun id => ⟨id, tableId, valueId, now, now⟩)
    (fun id => ⟨id, tableId + shift.tables,
      valueId + shift.values, now, now⟩) fun _ => rfl
  simp only [addItem, itemOf?_shifted, table?_shifted,
    value?_shifted, Option.isSome_map, Option.isNone_map]
  simp only [shifted, hInsert]
  split
  · rfl
  · split <;> rfl

/- A count with contents that are shifted. -/
def countedWith
    (counted : Nat × Contents) : Nat × Contents :=
  (counted.1, counted.2.shifted shift)

theorem addSlot_shifted (slot : Slot) :
    (contents.shifted shift).addSlot (slot.shifted shift) =
      countedWith shift (contents.addSlot slot) := by
  have hFind : (contents.shifted shift).slot?
      (slot.shifted shift).itemId
      (slot.shifted shift).attributeId =
        (contents.slot? slot.itemId slot.attributeId).map
          (Slot.shifted shift) :=
    contents.slot?_shifted shift _ _
  simp only [addSlot, hFind, Option.isSome_map]
  split
  · rfl
  · simp [countedWith, shifted]

theorem touch_shifted (id : Int) (now : Cell) :
    (contents.shifted shift).touch (id + shift.items) now =
      countedWith shift (contents.touch id now) := by
  have hSame (row : ItemRow) :
      ((row.shifted shift).id == id + shift.items) =
        (row.id == id) :=
    beq_shifted _ _ _
  simp only [touch, countedWith, shifted, Register.shifted,
    List.countP_map, List.map_map, Function.comp_def, hSame]
  refine congrArg (Prod.mk _) ?_
  congr 2
  refine List.map_congr_left fun row _ => ?_
  split <;> rfl

------------------------------------------------------------
-- Removing rows
------------------------------------------------------------

theorem removeTables_shifted
    (doomed doomed' : Int → Bool)
    (hDoomed : ∀ id, doomed' (id + shift.tables) = doomed id) :
    (contents.shifted shift).removeTables doomed' =
      (contents.removeTables doomed).map
        (countedWith shift) := by
  have hRemove := contents.tables.remove_shifted
    (Table.shifted shift) shift.tables
    (fun row => doomed row.id) (fun row => doomed' row.id)
    fun row => hDoomed row.id
  simp only [removeTables]
  simp only [shifted, hRemove]
  simp only [Register.shifted, List.filter_map, List.any_map,
    Function.comp_def, List.length_map, Table.shifted,
    Attribute.shifted, ItemRow.shifted, hDoomed, beq_shifted]
  split <;> rfl

theorem removeAttributes_shifted
    {doomed doomed' : Attribute → Bool}
    (hDoomed : ∀ row,
      doomed' (row.shifted shift) = doomed row) :
    (contents.shifted shift).removeAttributes doomed' =
      countedWith shift (contents.removeAttributes doomed) := by
  have hRemove := contents.attributes.remove_shifted
    (Attribute.shifted shift) shift.attributes doomed doomed'
    hDoomed
  simp only [removeAttributes, countedWith]
  simp only [shifted, hRemove]
  simp only [Register.shifted, List.filter_map,
    Function.comp_def, hDoomed, List.length_map]

theorem removeItems_shifted
    {doomed doomed' : ItemRow → Bool}
    (hDoomed : ∀ row,
      doomed' (row.shifted shift) = doomed row) :
    (contents.shifted shift).removeItems doomed' =
      countedWith shift (contents.removeItems doomed) := by
  have hRemove := contents.items.remove_shifted
    (ItemRow.shifted shift) shift.items doomed doomed' hDoomed
  simp only [removeItems, countedWith]
  simp only [shifted, hRemove]
  simp only [Register.shifted, List.filter_map,
    Function.comp_def, hDoomed, List.length_map]

theorem removeSlots_shifted
    {doomed doomed' : Slot → Bool}
    (hDoomed : ∀ slot,
      doomed' (slot.shifted shift) = doomed slot) :
    (contents.shifted shift).removeSlots doomed' =
      countedWith shift (contents.removeSlots doomed) := by
  simp only [removeSlots, countedWith, shifted,
    List.filter_map, Function.comp_def, hDoomed,
    List.length_map]

/- The same slots belong to a table. -/
theorem usesTable_shifted (tableId : Int) (slot : Slot) :
    Statement.usesTable (contents.shifted shift)
        (tableId + shift.tables) (slot.shifted shift) =
      Statement.usesTable contents tableId slot := by
  simp only [Statement.usesTable, shifted, Register.shifted,
    List.any_map, Function.comp_def, Attribute.shifted,
    Slot.shifted, beq_shifted]

theorem ownedBy_shifted (tableId : Int) (slot : Slot) :
    Statement.ownedBy (contents.shifted shift)
        (tableId + shift.tables) (slot.shifted shift) =
      Statement.ownedBy contents tableId slot := by
  simp only [Statement.ownedBy, shifted, Register.shifted,
    List.any_map, Function.comp_def, ItemRow.shifted,
    Slot.shifted, beq_shifted]

theorem isOrphan_shifted (slot : Slot) :
    Statement.isOrphan (contents.shifted shift)
        (slot.shifted shift) =
      Statement.isOrphan contents slot := by
  simp only [Statement.isOrphan, Slot.shifted, item?_shifted,
    Option.isNone_map]

------------------------------------------------------------
-- Listing names
------------------------------------------------------------

/- The names of tables and attributes are the same. -/
theorem schemaOf_shifted (table : Option String) :
    Statement.schemaOf (contents.shifted shift) table =
      Statement.schemaOf contents table := by
  simp only [Statement.schemaOf, shifted, Register.shifted,
    List.flatMap_map, List.filter_map, List.map_map,
    Function.comp_def, Table.shifted, Attribute.shifted,
    beq_shifted]

end Contents

------------------------------------------------------------
-- Statements
------------------------------------------------------------

namespace Statement

/-
  A statement and its twin give the same answer up to a
  change, and leave the same rows up to the shift.
-/
def Twins
    (shift : Shift)
    (asked twin : Statement)
    (give : asked.Answer → twin.Answer) : Prop :=
  ∀ clock contents,
    twin.run clock (contents.shifted shift) =
      (asked.run clock contents).map
        (Prod.map give (Contents.shifted shift))

variable {shift : Shift}

section Tables

theorem twins_tableNamed (name : String) :
    Twins shift (.tableNamed name) (.tableNamed name)
      (Option.map (Table.shifted shift)) :=
  fun _ contents => congrArg (reading (contents.shifted shift))
    (contents.tableNamed?_shifted shift name)

theorem twins_addTable (name : String) (numeric : Bool) :
    Twins shift (.addTable name numeric)
      (.addTable name numeric) (· + shift.tables) :=
  fun _ contents =>
    contents.addTable_shifted shift name numeric

theorem twins_removeTable (id : Int) :
    Twins shift (.removeTable id)
      (.removeTable (id + shift.tables)) fun count => count :=
  fun _ contents => contents.removeTables_shifted shift
    (· == id) (· == id + shift.tables)
    fun other => beq_shifted other id shift.tables

theorem twins_schema (table : Option String) :
    Twins shift (.schema table) (.schema table)
      fun names => names :=
  fun _ contents => congrArg (reading (contents.shifted shift))
    (contents.schemaOf_shifted shift table)

end Tables

section Attributes

theorem twins_attributeNamed (tableId : Int) (name : String) :
    Twins shift (.attributeNamed tableId name)
      (.attributeNamed (tableId + shift.tables) name)
      (Option.map (Attribute.shifted shift)) :=
  fun _ contents => congrArg (reading (contents.shifted shift))
    (contents.attributeNamed?_shifted shift tableId name)

theorem twins_attributeById (id : Int) :
    Twins shift (.attributeById id)
      (.attributeById (id + shift.attributes))
      (Option.map (Attribute.shifted shift)) :=
  fun _ contents => congrArg (reading (contents.shifted shift))
    (contents.attribute?_shifted shift id)

theorem twins_addAttribute
    (tableId : Int)
    (name : String)
    (numeric : Bool) :
    Twins shift (.addAttribute tableId name numeric)
      (.addAttribute (tableId + shift.tables) name numeric)
      (· + shift.attributes) :=
  fun _ contents =>
    contents.addAttribute_shifted shift tableId name numeric

theorem twins_removeSlotsByAttributes (tableId : Int) :
    Twins shift (.removeSlotsByAttributes tableId)
      (.removeSlotsByAttributes (tableId + shift.tables))
      fun count => count :=
  fun _ contents => congrArg Except.ok
    (contents.removeSlots_shifted shift
      (contents.usesTable_shifted shift tableId))

theorem twins_removeAttributesOf (tableId : Int) :
    Twins shift (.removeAttributesOf tableId)
      (.removeAttributesOf (tableId + shift.tables))
      fun count => count :=
  fun _ contents => congrArg Except.ok
    (contents.removeAttributes_shifted shift
      fun row => beq_shifted row.tableId tableId shift.tables)

end Attributes

section Values

theorem twins_valueOf (content : Scalar) :
    Twins shift (.valueOf content) (.valueOf content)
      (Option.map (Value.shifted shift)) :=
  fun _ contents => congrArg (reading (contents.shifted shift))
    (contents.valueOf?_shifted shift content)

theorem twins_valueById (id : Int) :
    Twins shift (.valueById id)
      (.valueById (id + shift.values))
      (Option.map (Value.shifted shift)) :=
  fun _ contents => congrArg (reading (contents.shifted shift))
    (contents.value?_shifted shift id)

theorem twins_addValue (content : Scalar) :
    Twins shift (.addValue content) (.addValue content)
      (· + shift.values) :=
  fun _ contents => contents.addValue_shifted shift content

end Values

section Items

theorem twins_itemOf (tableId valueId : Int) :
    Twins shift (.itemOf tableId valueId)
      (.itemOf (tableId + shift.tables)
        (valueId + shift.values))
      (Option.map (ItemRow.shifted shift)) :=
  fun _ contents => congrArg (reading (contents.shifted shift))
    (contents.itemOf?_shifted shift tableId valueId)

theorem twins_addItem (tableId valueId : Int) :
    Twins shift (.addItem tableId valueId)
      (.addItem (tableId + shift.tables)
        (valueId + shift.values))
      (· + shift.items) :=
  fun clock contents =>
    contents.addItem_shifted shift tableId valueId clock.cell

theorem twins_removeItem (id : Int) :
    Twins shift (.removeItem id)
      (.removeItem (id + shift.items)) fun count => count :=
  fun _ contents => congrArg Except.ok
    (contents.removeItems_shifted shift
      fun row => beq_shifted row.id id shift.items)

theorem twins_removeItemsOf (tableId : Int) :
    Twins shift (.removeItemsOf tableId)
      (.removeItemsOf (tableId + shift.tables))
      fun count => count :=
  fun _ contents => congrArg Except.ok
    (contents.removeItems_shifted shift
      fun row => beq_shifted row.tableId tableId shift.tables)

end Items

section Slots

theorem twins_slotsOf (itemId : Int) :
    Twins shift (.slotsOf itemId)
      (.slotsOf (itemId + shift.items))
      (List.map (Slot.shifted shift)) :=
  fun _ contents => congrArg (reading (contents.shifted shift))
    (contents.slotsOf_shifted shift itemId)

theorem twins_removeSlotsOf (tableId : Int) :
    Twins shift (.removeSlotsOf tableId)
      (.removeSlotsOf (tableId + shift.tables))
      fun count => count :=
  fun _ contents => congrArg Except.ok
    (contents.removeSlots_shifted shift
      (contents.ownedBy_shifted shift tableId))

theorem twins_removeOrphans :
    Twins shift .removeOrphans .removeOrphans
      fun count => count :=
  fun _ contents => congrArg Except.ok
    (contents.removeSlots_shifted shift
      (contents.isOrphan_shifted shift))

end Slots

end Statement

end SparseTables
