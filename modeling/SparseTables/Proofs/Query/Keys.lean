import SparseTables.Proofs.Query.Compiling
import SparseTables.Proofs.Query.Satisfying

/-
  This file shows which records are found by their keys.

  An item is read under the key that it has.  A comparison
  finds a key by any scalar, and a text and a number are
  equal there if the one spells the other.

  Main declarations:
    * `Scalar.isFoundBy`
    * `Scalar.isFoundBy_eq_same`
    * `Record.IsFoundBy`
    * `Contents.Sound.exists_isFoundBy_iff`
    * `Contents.Sound.eq_of_isFoundBy`
-/

namespace SparseTables

------------------------------------------------------------
-- Keys
------------------------------------------------------------

namespace Scalar

/-
  Does a comparison find a key by another scalar, which takes
  the kind of the key?
-/
def isFoundBy (key given : Scalar) : Bool :=
  Operator.equal.holdsIn (!key.isNumeric) key.cell given.cell

variable {key other given : Scalar}

theorem isFoundBy_iff :
    key.isFoundBy given = true ↔
      key.cell.compare
        (if key.isNumeric then given.cell.numeric
          else given.cell.textual) = .eq := by
  have hNull (content : Scalar) :
      content.cell.isNull = false := by
    cases content <;> rfl
  unfold isFoundBy Operator.holdsIn
  rw [hNull key, hNull given]
  cases key.isNumeric <;> simp [Operator.admits]

/- Within a kind a key is found by its equals. -/
theorem isFoundBy_eq_same
    (hKind : given.isNumeric = key.isNumeric) :
    key.isFoundBy given = key.same given := by
  rw [Bool.eq_iff_iff, isFoundBy_iff]
  cases key <;> cases given <;> try cases hKind
  · simp [isNumeric, cell, Cell.numeric, Cell.compare, same,
      Number.same]
  · simp [isNumeric, cell, Cell.textual, Cell.compare, same]

/- Keys of one kind that are found alike are equal. -/
theorem same_of_isFoundBy
    (hKind : key.isNumeric = other.isNumeric)
    (hKey : key.isFoundBy given = true)
    (hOther : other.isFoundBy given = true) :
    key.same other = true := by
  rw [isFoundBy_iff] at hKey hOther
  rw [← hKind] at hOther
  rw [← isFoundBy_eq_same hKind.symm, isFoundBy_iff]
  have hSame : key.cell.compare other.cell = .eq :=
    Std.TransCmp.eq_trans hKey
      (Std.OrientedCmp.eq_symm hOther)
  cases key <;> cases other <;> try cases hKind
  · exact hSame
  · exact hSame

end Scalar

------------------------------------------------------------
-- Records and their keys
------------------------------------------------------------

/- A record has a key that is found by a scalar. -/
def Record.IsFoundBy
    (record : Record)
    (given : Scalar) : Prop :=
  ∃ key, record.key = some key ∧ key.isFoundBy given = true

instance (record : Record) (given : Scalar) :
    Decidable (record.IsFoundBy given) :=
  decidable_of_iff
    (∃ key ∈ record.key, key.isFoundBy given = true) Iff.rfl

namespace Contents

variable {contents : Contents} {source : String}

/- The key of a record is of the kind of its table's keys. -/
theorem Sound.exists_record_key
    (hSound : contents.Sound)
    {table : Table}
    (hTable : contents.tableNamed? source = some table)
    {record : Record}
    (hRecord : record ∈ contents.records source) :
    ∃ key item, record.key = some key ∧
      key.isNumeric = table.numeric ∧
      contents.itemIn? source key = some item ∧
      contents.recordOf item = record ∧
      key.normalized = key := by
  rcases mem_records_iff.1 hRecord with
    ⟨other, hOther, item, hItem, hId, rfl⟩
  rcases Option.some.inj (hTable.symm.trans hOther) with rfl
  rcases hSound.tableNamed?_eq_some_iff.1 hTable with
    ⟨hRow, hName⟩
  rcases hSound.exists_key hItem hRow hId with
    ⟨value, hValue, hKind⟩
  rcases hSound.value?_eq_some_iff.1 hValue with
    ⟨hMem, hValueId⟩
  have hNormal := hSound.normalized value hMem
  refine ⟨value.content, item,
    congrArg (Option.map Value.content) hValue, hKind, ?_,
    rfl, hNormal⟩
  exact hSound.itemIn?_eq_some_iff.2 ⟨hItem,
    ⟨table, hRow, hId.symm, hName⟩,
    value, hMem, hValueId, hNormal.symm⟩

/- A key that has an item can be stored. -/
theorem Sound.isStorable_of_itemIn?
    (hSound : contents.Sound)
    {key : Scalar}
    {item : ItemRow}
    (hItem : contents.itemIn? source key = some item) :
    key.isStorable = true := by
  rcases hSound.itemIn?_eq_some_iff.1 hItem with
    ⟨-, -, value, hValue, -, hContent⟩
  rw [← Scalar.isStorable_normalized, ← hContent]
  exact hSound.storable value hValue

/- What is read under a key is a record with an equal key. -/
theorem Sound.exists_record_of_itemIn?
    (hSound : contents.Sound)
    {table : Table}
    (hTable : contents.tableNamed? source = some table)
    {key : Scalar}
    {item : ItemRow}
    (hItem : contents.itemIn? source key = some item) :
    ∃ kept, (contents.recordOf item).key = some kept ∧
      kept.same key ∧
      contents.recordOf item ∈ contents.records source ∧
      key.isNumeric = table.numeric := by
  rcases hSound.itemIn?_eq_some_iff.1 hItem with
    ⟨hMem, ⟨row, hRow, hRowId, hName⟩, value, hValue,
      hValueId, hContent⟩
  have hNamed := hSound.tableNamed?_eq_some_iff.2
    ⟨hRow, hName⟩
  rcases Option.some.inj (hTable.symm.trans hNamed) with rfl
  rcases hSound.exists_key hMem hRow hRowId.symm with
    ⟨found, hFound, hKind⟩
  have hFind := hSound.value?_eq_some_iff.2 ⟨hValue, hValueId⟩
  rcases Option.some.inj (hFound.symm.trans hFind) with rfl
  refine ⟨found.content, ?_, ?_, ?_, ?_⟩
  · exact congrArg (Option.map Value.content) hFound
  · rw [Scalar.same_iff_normalized, hContent,
      Scalar.normalized_normalized]
  · exact mem_records_iff.2
      ⟨table, hTable, item, hMem, hRowId.symm, rfl⟩
  · rw [← hKind, hContent, Scalar.isNumeric_normalized]

/-
  A key of its table's kind finds the record of the item that
  is read under it.
-/
theorem Sound.exists_isFoundBy_iff
    (hSound : contents.Sound)
    {table : Table}
    (hTable : contents.tableNamed? source = some table)
    {key : Scalar}
    (hKind : key.isNumeric = table.numeric)
    {id : Int} :
    (∃ record ∈ contents.records source,
        record.IsFoundBy key ∧ record.id = id) ↔
      ∃ item, contents.itemIn? source key = some item ∧
        item.id = id := by
  constructor
  · intro hRecords
    rcases hRecords with
      ⟨record, hRecord, ⟨kept, hKept, hFound⟩, hId⟩
    rcases hSound.exists_record_key hTable hRecord with
      ⟨other, item, hOther, hOtherKind, hItem, rfl, -⟩
    rcases Option.some.inj (hKept.symm.trans hOther) with rfl
    rw [Scalar.isFoundBy_eq_same
      (hKind.trans hOtherKind.symm)] at hFound
    have hSame := hSound.itemIn?_congr source
      (Scalar.same_iff_normalized.1 hFound)
    exact ⟨item, hSame.symm.trans hItem, hId⟩
  · intro hItems
    rcases hItems with ⟨item, hItem, hId⟩
    rcases hSound.exists_record_of_itemIn? hTable hItem with
      ⟨kept, hKept, hSame, hRecord, -⟩
    rcases hSound.exists_record_key hTable hRecord with
      ⟨other, -, hOther, hOtherKind, -⟩
    rcases Option.some.inj (hKept.symm.trans hOther) with rfl
    rw [← Scalar.isFoundBy_eq_same
      (hKind.trans hOtherKind.symm)] at hSame
    exact ⟨_, hRecord, ⟨kept, hKept, hSame⟩, hId⟩

/- Only one record of a table is found by a scalar. -/
theorem Sound.eq_of_isFoundBy
    (hSound : contents.Sound)
    {first second : Record}
    (hFirst : first ∈ contents.records source)
    (hSecond : second ∈ contents.records source)
    {given : Scalar}
    (hFound : first.IsFoundBy given)
    (hOther : second.IsFoundBy given) :
    first = second := by
  rcases mem_records_iff.1 hFirst with ⟨table, hTable, -⟩
  rcases hFound with ⟨key, hKey, hFound⟩
  rcases hOther with ⟨other, hOtherKey, hOther⟩
  rcases hSound.exists_record_key hTable hFirst with
    ⟨kept, item, hKept, hKind, hItem, rfl, hNormal⟩
  rcases hSound.exists_record_key hTable hSecond with
    ⟨kept', item', hKept', hKind', hItem', rfl, hNormal'⟩
  rcases Option.some.inj (hKey.symm.trans hKept) with rfl
  rcases Option.some.inj (hOtherKey.symm.trans hKept')
    with rfl
  have hSame : key = other := by
    rw [← hNormal, ← hNormal', ← Scalar.same_iff_normalized]
    exact Scalar.same_of_isFoundBy
      (hKind.trans hKind'.symm) hFound hOther
  subst hSame
  rcases Option.some.inj (hItem.symm.trans hItem') with rfl
  rfl

end Contents

end SparseTables
