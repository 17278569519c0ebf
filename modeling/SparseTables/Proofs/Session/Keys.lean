import SparseTables.Proofs.Query.Keys
import SparseTables.Proofs.Number
import SparseTables.Proofs.Session.Lookups
import SparseTables.Proofs.Session.Outcomes

/-
  This file states what callers can rely on when they look up
  identities by keys and keys by identities, at any time in
  the history of a store.

  The identity of an item can be looked up under a key of the
  other kind, under which the item is not read.

  Main declarations:
    * `Contents.Sound.rowId_eq_ok_iff`
    * `Contents.Sound.rowValue_eq`
    * `Session.Gives`
    * `Session.Finds`
    * `Session.rowId_agrees_with_get`
    * `Session.rowId_not_always_agrees`
-/

namespace SparseTables

------------------------------------------------------------
-- Cells
------------------------------------------------------------

theorem Record.cell_key (record : Record) :
    record.cell "value" = .ofOption record.key := by
  have hWord : Word.lower "value" = "value" :=
    Word.lower_eq_iff.2 (by decide)
  simp [Record.cell, hWord]

theorem Record.cell_id (record : Record) :
    record.cell "id" = .integer record.id := by
  have hWord : Word.lower "id" = "id" :=
    Word.lower_eq_iff.2 (by decide)
  simp [Record.cell, hWord]

theorem Cell.scalar?_ofOption (content : Option Scalar) :
    (Cell.ofOption content).scalar? = content := by
  rcases content with _ | (x | s) <;> rfl

------------------------------------------------------------
-- Lookups
------------------------------------------------------------

namespace Contents

variable {contents : Contents} {source : String}

/- A lookup by a key selects the records that it finds. -/
theorem Sound.selects_key
    (hSound : contents.Sound)
    {given : Scalar}
    (hStorable : given.isStorable = true)
    {record : Record}
    (hRecord : record ∈ contents.records source) :
    contents.selects
        (Session.lookupQuery source "id" "value" given)
          record = true ↔
      record.IsFoundBy given := by
  rcases mem_records_iff.1 hRecord with ⟨table, hTable, -⟩
  rcases hSound.exists_record_key hTable hRecord with
    ⟨key, -, hKey, hKind, -⟩
  have hWord : Word.isKey "value" = true :=
    Word.sameLetters_iff.2 rfl
  have hTextual : contents.isTextual table "value" =
      !key.isNumeric := by
    rw [isTextual, hWord, if_pos rfl, hKind]
  rw [Session.selects_lookupQuery hTable .id hStorable,
    hTextual, Record.cell_key, hKey]
  constructor
  · intro hFound
    exact ⟨key, hKey, hFound⟩
  · intro hFound
    rcases hFound with ⟨kept, hKept, hFound⟩
    rcases Option.some.inj (hKey.symm.trans hKept) with rfl
    exact hFound

/- A lookup by an identity selects the record that has it. -/
theorem selects_id
    {id : Int}
    (hExact : Number.Exact id)
    {record : Record}
    (hRecord : record ∈ contents.records source) :
    contents.selects (Session.lookupQuery source "value" "id"
        (.ofInt id)) record = true ↔
      record.id = id := by
  rcases mem_records_iff.1 hRecord with ⟨table, hTable, -⟩
  have hStorable : (Scalar.ofInt id).isStorable = true := by
    simp [Scalar.ofInt, Scalar.isStorable,
      Number.isNaN_ofInt hExact]
  have hTextual : contents.isTextual table "id" = false := by
    have hKey : Word.isKey "id" = false :=
      Word.sameLetters_eq_false_iff.2 (by decide)
    have hWord : Word.isReserved "id" = true :=
      Session.IsLookup.id.words.1
    rw [isTextual, hKey, hWord]
    rfl
  have hOrder : Operator.equal.holdsIn false
      (.integer record.id) (Scalar.ofInt id).cell =
        ((compare id record.id).swap == .eq) := by
    rw [← Number.compareInt_ofInt hExact]
    rfl
  rw [Session.selects_lookupQuery hTable .key hStorable,
    hTextual, Record.cell_id, hOrder, beq_iff_eq,
    Ordering.swap_eq_eq, compare_eq_iff_eq]
  exact eq_comm

------------------------------------------------------------
-- What lookups give
------------------------------------------------------------

/- The identity that a lookup gives for a key. -/
def rowId
    (contents : Contents)
    (source : String)
    (key : Scalar) : Except Error (Option Int) := do
  Check.table source "get_row_id"
  let found ← contents.select
    (Session.lookupQuery source "id" "value" key)
  Session.integerOf (found.rows.head?.bind Session.firstCell)

/- The key that a lookup gives for an identity. -/
def rowValue
    (contents : Contents)
    (source : String)
    (id : Int) : Except Error (Option Scalar) := do
  Check.table source "get_row_value"
  let found ← contents.select
    (Session.lookupQuery source "value" "id" (.ofInt id))
  pure (found.rows.head?.bind Session.firstCell)

theorem table_of_dictionary
    (hName : Check.dictionary "Table" source = .ok ())
    (context : String) :
    Check.table source context = .ok () := by
  rw [Check.dictionary, Except.then_eq_ok_iff,
    Check.that_eq_ok_iff] at hName
  exact Check.that_eq_ok_iff.2 hName.1

/- Only in a table with a proper name a lookup succeeds. -/
theorem dictionary_of_rowId
    {key : Scalar}
    {found : Option Int}
    (hFound : contents.rowId source key = .ok found) :
    Check.dictionary "Table" source = .ok () := by
  unfold rowId at hFound
  rw [Except.then_eq_ok_iff] at hFound
  cases hAnswer : contents.select
    (Session.lookupQuery source "id" "value" key) with
  | error error =>
      rw [hAnswer] at hFound
      cases hFound.2
  | ok answer =>
      rcases check_of_select hAnswer with ⟨hCheck, hFree⟩
      exact dictionary_eq_ok
        (Select.names_of_check hCheck).1 hFree

/- The identity of the record that a key finds is given. -/
theorem Sound.rowId_eq_ok_iff
    (hSound : contents.Sound)
    (hExact : ∀ item ∈ contents.items.rows,
      Number.Exact item.id)
    {key : Scalar}
    (hStorable : key.isStorable = true)
    {id : Int} :
    contents.rowId source key = .ok (some id) ↔
      Check.dictionary "Table" source = .ok () ∧
        ∃ record ∈ contents.records source,
          record.IsFoundBy key ∧ record.id = id := by
  by_cases hName : Check.dictionary "Table" source = .ok ()
  case neg =>
    constructor
    · intro hFound
      exact absurd (dictionary_of_rowId hFound) hName
    · intro hParts
      exact absurd hParts.1 hName
  rcases Session.select_lookupQuery hSound hName .id
    key with
    ⟨answer, first, hAnswer, hHead, hSome, hNone⟩
  have hRun : contents.rowId source key =
      .ok (first.map Record.id) := by
    unfold rowId
    rw [table_of_dictionary hName, hAnswer]
    simp only [bind, Except.bind, hHead]
    cases first with
    | none => rfl
    | some record =>
        rcases mem_records_iff.1 (hSome record rfl).1 with
          ⟨-, -, item, hItem, -, rfl⟩
        have hId := hExact item hItem
        rw [Option.bind_some, Record.cell_id]
        simp [Cell.scalar?, Scalar.ofInt, Session.integerOf,
          recordOf, Number.isWhole_ofInt hId,
          Number.toInt64_ofInt hId]
  rw [hRun, Except.ok.injEq, Option.map_eq_some_iff]
  constructor
  · intro hFirst
    rcases hFirst with ⟨record, hRecord, hId⟩
    rcases hSome record hRecord with ⟨hMem, hSelects⟩
    exact ⟨hName, record, hMem,
      (hSound.selects_key hStorable hMem).1 hSelects, hId⟩
  · intro hParts
    rcases hParts with ⟨-, record, hMem, hFound, hId⟩
    cases first with
    | none =>
        have hNot := hNone rfl record hMem
        rw [(hSound.selects_key hStorable hMem).2 hFound]
          at hNot
        cases hNot
    | some other =>
        rcases hSome other rfl with ⟨hOther, hSelects⟩
        have hSame := hSound.eq_of_isFoundBy hMem hOther
          hFound
          ((hSound.selects_key hStorable hOther).1 hSelects)
        exact ⟨other, rfl, hSame ▸ hId⟩

/- The key of a record is given for its identity. -/
theorem Sound.rowValue_eq
    (hSound : contents.Sound)
    (hName : Check.dictionary "Table" source = .ok ())
    {record : Record}
    (hRecord : record ∈ contents.records source)
    (hExact : Number.Exact record.id) :
    contents.rowValue source record.id = .ok record.key := by
  rcases Session.select_lookupQuery hSound hName .key
    (.ofInt record.id) with
    ⟨answer, first, hAnswer, hHead, hSome, hNone⟩
  unfold rowValue
  rw [table_of_dictionary hName, hAnswer]
  simp only [bind, Except.bind, hHead]
  cases first with
  | none =>
      have hNot := hNone rfl record hRecord
      rw [(selects_id hExact hRecord).2 rfl] at hNot
      cases hNot
  | some other =>
      rcases hSome other rfl with ⟨hOther, hSelects⟩
      have hSame : other = record :=
        List.inj_on_of_nodup_map (hSound.nodup_records source)
          hOther hRecord ((selects_id hExact hOther).1 hSelects)
      rw [hSame, Option.bind_some, Record.cell_key,
        Cell.scalar?_ofOption]
      rfl

end Contents

namespace Session

------------------------------------------------------------
-- Results
------------------------------------------------------------

/- Without failures a call gives a result. -/
def Gives
    {α : Type}
    (program : Program α)
    (shared : Shared)
    (found : α) : Prop :=
  ∃ after, program.advance (calm shared) =
    (.finished (.ok found), after)

/- A call that reads gives what the contents say. -/
theorem AtRest.gives_iff
    {α : Type}
    {shared : Shared}
    (hRest : AtRest shared)
    {program : Program α}
    {right : Except Error α}
    (hReads : program.Ensures
      (.free shared.store.clock .none) shared.contents
      shared.caches
      (Program.Reads (.free shared.store.clock .none)
        shared.contents fun outcome => outcome = right))
    {found : α} :
    Gives program shared found ↔ right = .ok found := by
  rcases hRest.reads hReads with ⟨outcome, after, hRun, rfl⟩
  constructor
  · intro hGives
    rcases hGives with ⟨other, hOther⟩
    rw [hRun] at hOther
    exact Progress.finished.inj (Prod.mk.inj hOther).1
  · intro hOutcome
    exact ⟨after, by rw [hRun, hOutcome]⟩

/- An item is read under a key, and it has an identity. -/
def Finds
    (policies : Policies)
    (shared : Shared)
    (source : String)
    (key : Scalar)
    (id : Int) : Prop :=
  ∃ item metadata,
    shared.contents.itemIn? source key = some item ∧
    item.id = id ∧
    Gives (get policies ⟨source, [key]⟩) shared
      ⟨[some metadata]⟩ ∧
    metadata.normalized = shared.contents.metadata id

------------------------------------------------------------
-- Keys and identities
------------------------------------------------------------

variable {shared : Shared} {source : String} {key : Scalar}

/- What a request finds is an item that the contents know. -/
theorem AtRest.finds_iff
    (hRest : AtRest shared)
    (policies : Policies)
    (source : String)
    (hStorable : key.isStorable = true)
    (id : Int) :
    Finds policies shared source key id ↔
      Check.dictionary "Table" source = .ok () ∧
        ∃ item,
          shared.contents.itemIn? source key = some item ∧
            item.id = id := by
  constructor
  · intro hFinds
    rcases hFinds with
      ⟨item, metadata, hItem, hId, ⟨after, hRun⟩, -⟩
    refine ⟨?_, item, hItem, hId⟩
    rcases hRest.get policies ⟨source, [key]⟩ with
      ⟨outcome, final, hOther, hRight⟩
    rw [hRun] at hOther
    rcases Progress.finished.inj (Prod.mk.inj hOther).1
      with rfl
    cases hName : Check.dictionary "Table" source with
    | ok _ => rfl
    | error error =>
        unfold Contents.respond at hRight
        rw [hName] at hRight
        cases hRight
  · intro hParts
    rcases hParts with ⟨hName, item, hItem, rfl⟩
    rcases hRest.get_item policies hName
      (Check.that_eq_ok_iff.2 hStorable) hItem with
      ⟨metadata, after, hRun, hMetadata⟩
    exact ⟨item, metadata, hItem, rfl, ⟨after, hRun⟩,
      hMetadata⟩

/-
  The identity that is looked up under a key is that of the
  one record whose key is equal to it in a comparison, and
  under this identity that key is looked up.

  If the key is of its table's kind, this is the item that is
  read under the key, and the key that is looked up is the
  same.  No item is read under a key of the other kind.
-/
theorem rowId_agrees_with_get
    (hReachable : Reachable shared)
    (hExact : ∀ item ∈ shared.contents.items.rows,
      Number.Exact item.id)
    (policies : Policies)
    (source : String)
    (key : Scalar)
    (hStorable : key.isStorable = true)
    (id : Int) :
    (Gives (rowId policies source key) shared (some id) ↔
      Check.dictionary "Table" source = .ok () ∧
        ∃ record ∈ shared.contents.records source,
          record.IsFoundBy key ∧ record.id = id) ∧
    (Gives (rowId policies source key) shared (some id) →
      ∃ kept, kept.isFoundBy key = true ∧
        Gives (rowValue policies source id) shared
          (some kept)) ∧
    ∀ table,
      shared.contents.tableNamed? source = some table →
      (key.isNumeric = table.numeric →
        (Gives (rowId policies source key) shared (some id) ↔
          Finds policies shared source key id) ∧
        (Finds policies shared source key id →
          ∃ kept, kept.same key = true ∧
            Gives (rowValue policies source id) shared
              (some kept))) ∧
      (key.isNumeric ≠ table.numeric →
        ¬ Finds policies shared source key id) := by
  have hRest := hReachable.atRest
  have hSound : shared.contents.Sound := hRest.sound
  have hRowId :
      Gives (rowId policies source key) shared (some id) ↔
        Check.dictionary "Table" source = .ok () ∧
          ∃ record ∈ shared.contents.records source,
            record.IsFoundBy key ∧ record.id = id :=
    (hRest.gives_iff (ensures_rowId rfl hSound hRest.mirrors
      policies source key)).trans
      (hSound.rowId_eq_ok_iff hExact hStorable)
  have hRowValue {record : Record} {kept : Scalar}
      (hName : Check.dictionary "Table" source = .ok ())
      (hRecord : record ∈ shared.contents.records source)
      (hKept : record.key = some kept)
      (hId : record.id = id) :
      Gives (rowValue policies source id) shared
        (some kept) := by
    rcases Contents.mem_records_iff.1 hRecord with
      ⟨-, -, item, hItem, -, rfl⟩
    have hRight := hSound.rowValue_eq hName hRecord
      (hExact item hItem)
    rw [hId, hKept] at hRight
    exact (hRest.gives_iff (ensures_rowValue rfl hSound
      hRest.mirrors policies source id)).2 hRight
  have hFinds := hRest.finds_iff policies source hStorable id
  refine ⟨hRowId, ?_, fun table hTable =>
    ⟨fun hKind => ⟨?_, ?_⟩, ?_⟩⟩
  · intro hGives
    rcases hRowId.1 hGives with
      ⟨hName, record, hRecord, ⟨kept, hKept, hFound⟩, hId⟩
    exact ⟨kept, hFound,
      hRowValue hName hRecord hKept hId⟩
  · rw [hRowId, hFinds,
      hSound.exists_isFoundBy_iff hTable hKind]
  · intro hFound
    rcases hFinds.1 hFound with ⟨hName, item, hItem, hId⟩
    rcases hSound.exists_record_of_itemIn? hTable hItem with
      ⟨kept, hKept, hSame, hRecord, -⟩
    exact ⟨kept, hSame, hRowValue hName hRecord hKept hId⟩
  · intro hOther hFound
    rcases hFinds.1 hFound with ⟨-, item, hItem, -⟩
    rcases hSound.exists_record_of_itemIn? hTable hItem with
      ⟨-, -, -, -, hKind⟩
    exact hOther hKind

/- A store with an item under the number 5. -/
def withNumber : Shared :=
  ((define default ⟨"t", .number (.ofInt 5), []⟩).advance
    Moment.new.shared).2

theorem reachable_withNumber : Reachable withNumber :=
  Reachable.after_call .refl default
    (.define ⟨"t", .number (.ofInt 5), []⟩)

/- A text that spells the number of an item finds it. -/
theorem rowId_agrees_with_get_spelled :
    Gives (rowId default "t" (.text "5")) withNumber
        (some 1) ∧
      ¬ Finds default withNumber "t" (.text "5") 1 := by
  have hTable : withNumber.contents.tableNamed? "t" =
      some ⟨1, "t", true⟩ := by
    decide +kernel
  rcases rowId_agrees_with_get reachable_withNumber
    (by decide +kernel) default "t" (.text "5") rfl 1 with
    ⟨hRowId, -, hFinds⟩
  exact ⟨hRowId.2 (by decide +kernel),
    (hFinds _ hTable).2 (by decide)⟩

/-
  An identity may be looked up under a key under which no
  item is read.
-/
theorem rowId_not_always_agrees :
    ¬ ∀ (shared : Shared) (policies : Policies)
        (source : String) (key : Scalar) (id : Int),
      Reachable shared →
      (shared.contents.tableNamed? source).isSome →
      key.isStorable = true →
      (Gives (rowId policies source key) shared (some id) ↔
        Finds policies shared source key id) := by
  intro hAll
  have hRun : (rowId default "t" (.text "5")).advance
      (calm withNumber) = (.finished (.ok (some 1)), _) :=
    Prod.ext (Progress.eq_of_result? (by decide +kernel)) rfl
  have hNone : withNumber.contents.itemIn? "t" (.text "5") =
      none := by
    decide +kernel
  rcases (hAll withNumber default "t" (.text "5") 1
    reachable_withNumber (by decide +kernel) rfl).1
    ⟨_, hRun⟩ with ⟨item, -, hItem, -⟩
  rw [hNone] at hItem
  cases hItem

end Session

end SparseTables
