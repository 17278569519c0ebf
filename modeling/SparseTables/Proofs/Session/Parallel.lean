import SparseTables.Proofs.Program.Parallel
import SparseTables.Proofs.Query.Shifting
import SparseTables.Proofs.Session.Kinds
import SparseTables.Proofs.Session.Naming

/-
  This file runs the calls of a session on stores with the
  same rows under shifted identities.

  Most calls are parallel whatever they are answered.  Where a
  missing row would be told by its identity, the calls are
  parallel because no such row is missing.

  Main declarations:
    * `Session.parallel_select`
    * `Session.parallel_delete`
    * `Session.parallel_dropTable`
    * `Session.echoes_define`
    * `Session.echoes_get`
-/

namespace SparseTables

open Program

variable {shift : Shift}

------------------------------------------------------------
-- Dictionaries
------------------------------------------------------------

namespace Tables

theorem parallel_findOrAdd
    (name : String)
    (intent : Intent)
    (numeric : Bool) :
    Parallel shift (Option.map (Table.shifted shift))
      (findOrAdd name intent numeric)
      (findOrAdd name intent numeric) := by
  refine (Parallel.run (Statement.twins_tableNamed name)).bind
    fun found => ?_
  cases found with
  | some row => exact (Parallel.keepTable row).map fun _ => rfl
  | none =>
      cases intent with
      | lookup => exact .pure _ none
      | create =>
          exact (Parallel.run
            (Statement.twins_addTable name numeric)).bind
              fun id => (Parallel.keepTable
                ⟨id, name, numeric⟩).map fun _ => rfl

theorem parallel_resolve
    (policy : Policy)
    (name : String)
    (intent : Intent)
    (numeric : Bool) :
    Parallel shift (Option.map (Table.shifted shift))
      (resolve policy name intent numeric)
      (resolve policy name intent numeric) := by
  refine Parallel.check _ fun _ => .caches fun caches => ?_
  have hKept : (caches.shifted shift).tables.get? name =
      (caches.tables.get? name).map (Table.shifted shift) :=
    Keeper.get?_shifted _ Function.injective_id name
  rw [hKept]
  cases caches.tables.get? name with
  | some kept => exact .pure _ (some kept)
  | none =>
      exact .attempts policy _
        (parallel_findOrAdd name intent numeric)

end Tables

namespace Attributes

theorem parallel_findOrAdd
    (tableId : Int)
    (name : String)
    (intent : Intent)
    (numeric : Bool) :
    Parallel shift (Option.map (Attribute.shifted shift))
      (findOrAdd tableId name intent numeric)
      (findOrAdd (tableId + shift.tables) name intent
        numeric) := by
  refine (Parallel.run (Statement.twins_attributeNamed tableId
    name)).bind fun found => ?_
  cases found with
  | some row =>
      exact (Parallel.keepAttribute row).map fun _ => rfl
  | none =>
      cases intent with
      | lookup => exact .pure _ none
      | create =>
          exact (Parallel.run (Statement.twins_addAttribute
            tableId name numeric)).bind
              fun id => (Parallel.keepAttribute
                ⟨id, tableId, name, numeric⟩).map fun _ => rfl

theorem parallel_resolve
    (policy : Policy)
    (tableId : Int)
    (name : String)
    (intent : Intent)
    (numeric : Bool) :
    Parallel shift (Option.map (Attribute.shifted shift))
      (resolve policy tableId name intent numeric)
      (resolve policy (tableId + shift.tables) name intent
        numeric) := by
  refine Parallel.check _ fun _ => .caches fun caches => ?_
  have hKept : (caches.shifted shift).attributes.get?
      (tableId + shift.tables, name) =
        (caches.attributes.get? (tableId, name)).map
          (Attribute.shifted shift) :=
    Keeper.get?_shifted _ shift.key_injective (tableId, name)
  rw [hKept]
  cases caches.attributes.get? (tableId, name) with
  | some kept => exact .pure _ (some kept)
  | none =>
      exact .attempts policy _
        (parallel_findOrAdd tableId name intent numeric)

theorem parallel_byId (id : Int) :
    Parallel shift (Option.map (Attribute.shifted shift))
      (byId id) (byId (id + shift.attributes)) := by
  refine .caches fun caches => ?_
  have hKept : (caches.shifted shift).attributes.lookup?
      (id + shift.attributes) =
        (caches.attributes.lookup? id).map
          (Attribute.shifted shift) :=
    Keeper.lookup?_shifted _ id
  rw [hKept]
  cases caches.attributes.lookup? id with
  | some kept => exact .pure _ (some kept)
  | none =>
      refine (Parallel.run (Statement.twins_attributeById
        id)).bind fun found => ?_
      cases found with
      | some row =>
          exact (Parallel.keepAttribute row).map fun _ => rfl
      | none => exact .pure _ none

theorem parallel_purge (tableId : Int) :
    Parallel shift id (purge tableId)
      (purge (tableId + shift.tables)) :=
  (Parallel.run (Statement.twins_removeSlotsByAttributes
    tableId)).bind fun _ =>
      (Parallel.run (Statement.twins_removeAttributesOf
        tableId)).bind fun _ => .pure id ()

end Attributes

namespace Values

theorem parallel_findOrAdd
    (content : Scalar)
    (intent : Intent) :
    Parallel shift (Option.map (· + shift.values))
      (findOrAdd content intent)
      (findOrAdd content intent) := by
  refine (Parallel.run (Statement.twins_valueOf content)).bind
    fun found => ?_
  cases found with
  | some row =>
      exact (Parallel.keepValue content row.id).bind
        fun _ => .pure _ (some row.id)
  | none =>
      cases intent with
      | lookup => exact .pure _ none
      | create =>
          exact (Parallel.run
            (Statement.twins_addValue content)).bind
              fun id => (Parallel.keepValue content id).bind
                fun _ => .pure _ (some id)

theorem parallel_resolve
    (policy : Policy)
    (content : Scalar)
    (intent : Intent) :
    Parallel shift (Option.map (· + shift.values))
      (resolve policy content intent)
      (resolve policy content intent) := by
  refine Parallel.check _ fun _ => .caches fun caches => ?_
  have hKept : (caches.shifted shift).values.get? content =
      (caches.values.get? content).map (· + shift.values) :=
    ValueKeeper.get?_shifted _ _ content
  rw [hKept]
  cases caches.values.get? content with
  | some kept => exact .pure _ (some kept)
  | none =>
      exact .attempts policy _
        (parallel_findOrAdd content intent)

theorem parallel_byId (valueId : Int) :
    Parallel shift id (byId valueId)
      (byId (valueId + shift.values)) := by
  refine .caches fun caches => ?_
  have hKept : (caches.shifted shift).values.lookup?
      (valueId + shift.values) =
        caches.values.lookup? valueId :=
    ValueKeeper.lookup?_shifted _ _ valueId
  rw [hKept]
  cases caches.values.lookup? valueId with
  | some kept => exact .pure _ (some kept)
  | none =>
      refine (Parallel.run (Statement.twins_valueById
        valueId)).bind fun found => ?_
      cases found with
      | some row =>
          exact (Parallel.keepValue row.content valueId).bind
            fun _ => .pure _ (some row.content)
      | none => exact .pure _ none

end Values

------------------------------------------------------------
-- Items
------------------------------------------------------------

/- The change of a slot under other identities. -/
def SlotChange.shifted
    (shift : Shift)
    (change : SlotChange) : SlotChange where
  attributeId := change.attributeId + shift.attributes
  valueId := change.valueId.map (· + shift.values)

theorem Contents.applyChanges_shifted
    (contents : Contents)
    (id : Int)
    (changes : List SlotChange) :
    (contents.shifted shift).applyChanges (id + shift.items)
        (changes.map (SlotChange.shifted shift)) =
      (contents.applyChanges id changes).shifted shift := by
  induction changes generalizing contents with
  | nil => rfl
  | cons change rest ih =>
      have hIsSlot (slot : Slot) :
          isSlot (id + shift.items)
              (change.attributeId + shift.attributes)
              (slot.shifted shift) =
            isSlot id change.attributeId slot := by
        simp only [isSlot, Slot.shifted, beq_shifted]
      have hCleared :=
        contents.removeSlots_shifted shift hIsSlot
      have hFirst :
          applyChange (id + shift.items)
              (contents.shifted shift)
              (change.shifted shift) =
            (applyChange id contents change).shifted shift := by
        simp only [applyChange, SlotChange.shifted, hCleared,
          countedWith]
        cases change.valueId with
        | none => rfl
        | some valueId =>
            exact congrArg Prod.snd (addSlot_shifted shift _
              ⟨id, change.attributeId, valueId⟩)
      rw [List.map_cons, applyChanges, List.foldl_cons, hFirst]
      exact ih _

namespace Items

theorem parallel_findOrAdd
    (tableId valueId : Int)
    (intent : Intent) :
    Parallel shift (Option.map (· + shift.items))
      (findOrAdd tableId valueId intent)
      (findOrAdd (tableId + shift.tables)
        (valueId + shift.values) intent) := by
  refine (Parallel.run (Statement.twins_itemOf tableId
    valueId)).bind fun found => ?_
  cases found with
  | some row => exact .pure _ (some row.id)
  | none =>
      cases intent with
      | lookup => exact .pure _ none
      | create =>
          exact (Parallel.run (Statement.twins_addItem tableId
            valueId)).map fun _ => rfl

theorem parallel_resolve
    (policy : Policy)
    (tableId valueId : Int)
    (intent : Intent) :
    Parallel shift (Option.map (· + shift.items))
      (resolve policy tableId valueId intent)
      (resolve policy (tableId + shift.tables)
        (valueId + shift.values) intent) :=
  .attempts policy _
    (parallel_findOrAdd tableId valueId intent)

theorem parallel_slots (id : Int) :
    Parallel shift (List.map (Slot.shifted shift)) (slots id)
      (slots (id + shift.items)) :=
  .run (Statement.twins_slotsOf id)

theorem parallel_removeEach (ids : List Int) :
    Parallel shift id (removeEach ids)
      (removeEach (ids.map (· + shift.items))) := by
  induction ids with
  | nil => exact .pure _ 0
  | cons first rest ih =>
      exact (Parallel.runHeld (Statement.twins_removeItem
        first)).bind fun removed => ih.bind fun more =>
          .pure _ (removed + more)

theorem parallel_remove (ids : List Int) :
    Parallel shift id (remove ids)
      (remove (ids.map (· + shift.items))) :=
  (parallel_removeEach ids).transaction

theorem parallel_purge (tableId : Int) :
    Parallel shift id (purge tableId)
      (purge (tableId + shift.tables)) :=
  (Parallel.run (Statement.twins_removeSlotsOf tableId)).bind
    fun _ => (Parallel.run (Statement.twins_removeItemsOf
      tableId)).bind fun _ => (Parallel.run
        Statement.twins_removeOrphans).bind
          fun _ => .pure _ ()

/- The slots of an item that is there change alike. -/
theorem follows_setSlots
    (clock : Clock)
    {contents : Contents}
    {item : ItemRow}
    (hItem : item ∈ contents.items.rows)
    (changes : List SlotChange)
    (caches : Caches) :
    (setSlots item.id changes).Follows shift id
      (setSlots (item.id + shift.items)
        (changes.map (SlotChange.shifted shift)))
      ⟨⟨.ofContents contents, clock, .none⟩, caches⟩ := by
  have hThere : item.shifted shift ∈
      (contents.shifted shift).items.rows :=
    List.mem_map_of_mem hItem
  have hTwin := ends_setSlots clock hThere
    (changes.map (SlotChange.shifted shift))
    (caches.shifted shift)
  have hTouch := contents.touch_shifted shift item.id
    clock.cell
  refine (ends_setSlots clock hItem changes caches).follows ?_
  rw [show (item.shifted shift).id = item.id + shift.items
    from rfl, hTouch] at hTwin
  simp only [Contents.countedWith,
    Contents.applyChanges_shifted] at hTwin
  exact hTwin

end Items

namespace Session

variable (policies : Policies)

------------------------------------------------------------
-- Queries
------------------------------------------------------------

theorem parallel_knownAmong
    (table : Table)
    (columns : List String) :
    Parallel shift
      (List.map (Prod.map id (Attribute.shifted shift)))
      (knownAmong policies table columns)
      (knownAmong policies (table.shifted shift) columns) := by
  induction columns with
  | nil => exact .pure _ []
  | cons column rest ih =>
      unfold knownAmong
      split
      · exact ih
      · refine (Attributes.parallel_resolve policies.rows
          table.id column .lookup false).bind
            fun found => ih.bind fun more => ?_
        cases found <;> exact .pure _ _

/- The same query becomes the same plan up to the shift. -/
theorem parallel_compile (query : Select) :
    Parallel shift (Prod.map (Plan.shifted shift) id)
      (compile policies query) (compile policies query) := by
  have hBuilt (table : Option Table)
      (known : List (String × Attribute)) :
      Parallel shift (Prod.map (Plan.shifted shift) id)
        (pure (Plan.build query table known,
          Params.ofScalars query.params.entries))
        (pure (Plan.build query
          (table.map (Table.shifted shift))
          (known.map
            (Prod.map id (Attribute.shifted shift))),
          Params.ofScalars query.params.entries)) := by
    rw [Plan.build_shifted]
    exact .pure _ (Plan.build query table known, _)
  refine Parallel.check _ fun _ =>
    (Tables.parallel_resolve policies.rows query.source
      .lookup false).bind fun table => ?_
  cases table with
  | none => exact hBuilt none []
  | some row =>
      exact (parallel_knownAmong policies row
        query.referenced).bind (hBuilt (some row))

/-
  A query that mentions no identities of items gives the same
  rows.
-/
theorem parallel_select
    {query : Select}
    (hFree : query.IdFree) :
    Parallel shift id (select policies query)
      (select policies query) := by
  refine (parallel_compile policies query).bind_of ?_
  rintro ⟨plan, params⟩ hYields
  rcases exists_build_of_compile hYields with
    ⟨-, table, known, -, rfl⟩
  exact (Parallel.run (Statement.twins_select shift
    (Plan.idFree_build hFree table known) params)).bind
      fun found => .pure id _

theorem parallel_schema (table : Option String) :
    Parallel shift id (schema table) (schema table) :=
  (Parallel.run (Statement.twins_schema table)).bind
    fun _ => .pure id _

------------------------------------------------------------
-- Tables
------------------------------------------------------------

theorem parallel_createTable
    (name : String)
    (numeric : Bool) :
    Parallel shift id (createTable policies name numeric)
      (createTable policies name numeric) :=
  (Tables.parallel_resolve policies.rows name .create
    numeric).bind fun found =>
      (Parallel.required _ _ found).bind fun _ => .pure id ()

theorem parallel_dropTable (name : String) :
    Parallel shift id (dropTable policies name)
      (dropTable policies name) := by
  refine Parallel.clearCaches.bind fun _ =>
    (Tables.parallel_resolve policies.rows name .lookup
      false).bind fun found => ?_
  cases found with
  | none => exact .pure id ()
  | some table =>
      have hDrop : Parallel shift id
          (do
            Attributes.purge table.id
            Items.purge table.id
            Tables.remove table.id)
          (do
            Attributes.purge (table.shifted shift).id
            Items.purge (table.shifted shift).id
            Tables.remove (table.shifted shift).id) :=
        (Attributes.parallel_purge table.id).bind fun _ =>
          (Items.parallel_purge table.id).bind fun _ =>
            (Parallel.run (Statement.twins_removeTable
              table.id)).bind fun _ => .pure id ()
      exact hDrop.attempt.bind fun dropped =>
        Parallel.clearCaches.bind fun _ => .done dropped

------------------------------------------------------------
-- Deleting
------------------------------------------------------------

theorem parallel_itemUnder (table : Table) (key : Scalar) :
    Parallel shift (Option.map (· + shift.items))
      (itemUnder policies table key)
      (itemUnder policies (table.shifted shift) key) := by
  refine (Values.parallel_resolve policies.values key
    .lookup).bind fun found => ?_
  cases found with
  | none => exact .pure _ none
  | some valueId =>
      exact Items.parallel_resolve policies.rows table.id
        valueId .lookup

theorem parallel_itemsUnder
    (table : Table)
    (keys : List Scalar) :
    Parallel shift (List.map (· + shift.items))
      (itemsUnder policies table keys)
      (itemsUnder policies (table.shifted shift) keys) := by
  induction keys with
  | nil => exact .pure _ []
  | cons key rest ih =>
      refine (parallel_itemUnder policies table key).bind
        fun first => ih.bind fun more => ?_
      cases first <;> exact .pure _ _

theorem parallel_delete (name : String) (keys : List Scalar) :
    Parallel shift id (delete policies name keys)
      (delete policies name keys) := by
  refine (Tables.parallel_resolve policies.rows name .lookup
    false).bind fun found => ?_
  cases found with
  | none => exact .pure id ()
  | some table =>
      exact (parallel_itemsUnder policies table keys).bind
        fun doomed => (Items.parallel_remove doomed).bind
          fun _ => .pure id ()

------------------------------------------------------------
-- Defining
------------------------------------------------------------

theorem parallel_changeOf
    (tableId : Int)
    (name : String)
    (content : Option Scalar) :
    Parallel shift (Option.map (SlotChange.shifted shift))
      (changeOf policies tableId name content)
      (changeOf policies (tableId + shift.tables) name
        content) := by
  cases content with
  | none =>
      refine (Attributes.parallel_resolve policies.rows
        tableId name .lookup false).bind fun found => ?_
      cases found <;> exact .pure _ _
  | some content =>
      exact Parallel.check _ fun _ =>
        (Attributes.parallel_resolve policies.rows tableId
          name .create content.isNumeric).bind fun found =>
        (Parallel.required _ _ found).bind fun row =>
        Parallel.check (checkKind name content row.numeric)
          fun _ =>
        (Values.parallel_resolve policies.values content
          .create).bind fun found =>
        (Parallel.required _ _ found).bind fun valueId =>
        .pure _ (some (SlotChange.mk row.id (some valueId)))

theorem parallel_changesOf
    (tableId : Int)
    (entries : List (String × Option Scalar)) :
    Parallel shift (List.map (SlotChange.shifted shift))
      (changesOf policies tableId entries)
      (changesOf policies (tableId + shift.tables)
        entries) := by
  induction entries with
  | nil => exact .pure _ []
  | cons entry rest ih =>
      refine (parallel_changeOf policies tableId entry.1
        entry.2).bind fun first => ih.bind fun more => ?_
      cases first <;> exact .pure _ _

variable {clock : Clock} {contents : Contents}

/- The last part: the item is there, and its slots change. -/
theorem echoes_defineSlots
    (hSound : contents.Sound)
    {item : ItemRow}
    (hItem : item ∈ contents.items.rows)
    (entries : List (String × Option Scalar)) :
    (do
      let changes ← changesOf policies item.tableId entries
      Items.setSlots item.id changes
      pure item.id : Program Int).Echoes shift
        (· + shift.items) clock contents
        (do
          let changes ← changesOf policies
            (item.tableId + shift.tables) entries
          Items.setSlots (item.id + shift.items) changes
          pure (item.id + shift.items)) := by
  have hPending := Contents.Pending.nil hSound hItem
  refine (parallel_changesOf policies item.tableId
    entries).echoes.bind
      (fun _ hMirrors => ensures_changesOf rfl hSound hMirrors
        policies hPending entries) ?_
  rintro changes after caches hAfter ⟨-, hMirrors, hChanges⟩
  have hPending := hChanges changes rfl
  refine ⟨hMirrors, fun caches _ => ?_⟩
  exact (Items.follows_setSlots clock hPending.isThere changes
    caches).bind fun _ _ hEnd =>
      (Parallel.pure _ item.id).follows
        (calm_of_advance hEnd rfl)

/- Defining an item gives its identity, which is shifted. -/
theorem echoes_define
    (hSound : contents.Sound)
    (request : Define) :
    (define policies request).Echoes shift (· + shift.items)
      clock contents (define policies request) := by
  refine Echoes.check fun _ _ => ?_
  refine (Tables.parallel_resolve policies.rows request.table
    .create request.key.isNumeric).echoes.created
      (fun _ hMirrors => Tables.ensures_resolve rfl hSound
        hMirrors policies.rows request.table .create
        request.key.isNumeric) _ ?_
  intro table first hFirst hGrows _ hFound
  refine Echoes.check fun _ hKind => ?_
  refine (Values.parallel_resolve policies.values request.key
    .create).echoes.created
      (fun _ hMirrors => Values.ensures_resolve rfl hFirst
        hMirrors policies.values request.key .create) _ ?_
  intro key second hSecond hMore _ hKey
  have hTable := hMore.tableNamed?_eq_some hFound
  have hMay := mayCreate_of_checkKind hSecond hTable hKey hKind
  refine (Items.parallel_resolve policies.rows table.id key.id
    .create).echoes.created
      (fun _ hMirrors => Items.ensures_resolve rfl hSecond
        hMirrors policies.rows fun _ => hMay) _ ?_
  intro item third hThird _ _
    (hItem : third.itemOf? table.id key.id = some item)
  rcases hThird.itemOf?_eq_some_iff.1 hItem with
    ⟨hRow, hTableId, -⟩
  change Echoes shift (· + shift.items) clock third
    (do
      let changes ← changesOf policies table.id request.entries
      Items.setSlots item.id changes
      pure item.id)
    (do
      let changes ← changesOf policies
        (table.id + shift.tables) request.entries
      Items.setSlots (item.id + shift.items) changes
      pure (item.id + shift.items))
  rw [← hTableId]
  exact echoes_defineSlots policies hThird hRow
    request.entries

------------------------------------------------------------
-- Reading
------------------------------------------------------------

/- The slots of an item are read. -/
theorem ensures_slots
    {setup : Setup}
    {caches : Caches}
    (hFree : setup.saved = none)
    (hSound : contents.Sound)
    (hMirrors : caches.Mirrors contents)
    (itemId : Int) :
    (Items.slots itemId).Ensures setup contents caches
      (Reads setup contents fun outcome =>
        outcome = .ok (contents.slotsOf itemId)) := by
  refine ensures_run hFree hSound fun answer after hMay => ?_
  cases hMay with
  | answered hRuns =>
      cases hRuns
      exact ⟨hSound, rfl, hMirrors, Or.inl rfl⟩
  | failed hRuns => cases hRuns
  | refused hTrouble error =>
      exact ⟨hSound, reads_refused hMirrors hTrouble error⟩
  | lost hAny error hRuns =>
      cases hRuns
      exact ⟨hSound,
        reads_refused hMirrors (by simp [hAny]) error⟩

/- What the slots refer to is there, so nothing is missing. -/
theorem echoes_addSlots
    (hSound : contents.Sound)
    {slots : List Slot}
    (hSlots : ∀ slot ∈ slots, slot ∈ contents.slots)
    (metadata : Metadata) :
    (addSlots metadata slots).Echoes shift id clock contents
      (addSlots metadata
        (slots.map (Slot.shifted shift))) := by
  induction slots generalizing metadata with
  | nil => exact (Parallel.pure id metadata).echoes
  | cons slot rest ih =>
      rcases hSound.slotsFit slot (hSlots slot
        List.mem_cons_self) with
        ⟨row, hRow, value, hValue, hRowId, hValueId, -⟩
      have hFindRow :=
        hSound.attribute?_eq_some_iff.2 ⟨hRow, hRowId⟩
      have hFindValue :=
        hSound.value?_eq_some_iff.2 ⟨hValue, hValueId⟩
      refine (Attributes.parallel_byId
        slot.attributeId).echoes.reads_bind
          (fun _ hMirrors => Attributes.ensures_byId rfl hSound
            hMirrors slot.attributeId) fun found hFound => ?_
      rw [Except.ok.injEq, hFindRow] at hFound
      subst hFound
      refine (Values.parallel_byId
        slot.valueId).echoes.reads_bind
          (fun _ hMirrors => Values.ensures_byId rfl hSound
            hMirrors slot.valueId) fun found hFound => ?_
      rcases hFound with ⟨_, ⟨rfl⟩, hContent⟩
      rw [hFindValue, Option.map_some,
        Option.map_eq_some_iff] at hContent
      rcases hContent with ⟨content, rfl, -⟩
      exact ih (fun slot hSlot =>
        hSlots slot (List.mem_cons_of_mem _ hSlot)) _

theorem echoes_metadataOf
    (hSound : contents.Sound)
    (itemId : Int) :
    (metadataOf itemId).Echoes shift id clock contents
      (metadataOf (itemId + shift.items)) := by
  refine (Items.parallel_slots itemId).echoes.reads_bind
    (fun _ hMirrors => ensures_slots rfl hSound hMirrors
      itemId) fun found hFound => ?_
  cases hFound
  exact echoes_addSlots hSound (fun slot hSlot =>
    (Contents.mem_slotsOf_iff.1 hSlot).1) .empty

theorem echoes_getEach
    (hSound : contents.Sound)
    (table : Table)
    (keys : List Scalar) :
    (getEach policies table keys).Echoes shift id clock
      contents
      (getEach policies (table.shifted shift) keys) := by
  induction keys with
  | nil => exact (Parallel.pure id []).echoes
  | cons key rest ih =>
      refine (parallel_itemUnder policies table
        key).echoes.reads_bind
          (fun _ hMirrors => ensures_itemUnder rfl hSound
            hMirrors policies table key) fun found _ => ?_
      have hMore (first : Option Metadata) :
          (do
            let more ← getEach policies table rest
            pure (first :: more)).Echoes shift id clock
              contents
              (do
                let more ← getEach policies
                  (table.shifted shift) rest
                pure (first :: more)) :=
        ih.reads_bind
          (fun _ hMirrors => ensures_getEach rfl hSound
            hMirrors policies table rest)
          fun more _ => (Parallel.pure id _).echoes
      cases found with
      | none => exact hMore none
      | some itemId =>
          have hFirst : (some <$> metadataOf itemId).Echoes
              shift id clock contents
              (some <$> metadataOf (itemId + shift.items)) :=
            (echoes_metadataOf hSound itemId).reads_bind
              (fun _ hMirrors => ensures_metadataOf rfl hSound
                hMirrors itemId)
              fun _ _ => (Parallel.pure id _).echoes
          exact hFirst.reads_bind
            (fun _ hMirrors => ensures_some_metadataOf rfl
              hSound hMirrors itemId) fun first _ =>
              hMore first

/- The attributes under keys are the same. -/
theorem echoes_get
    (hSound : contents.Sound)
    (request : GetRequest) :
    (get policies request).Echoes shift id clock contents
      (get policies request) := by
  refine (Tables.parallel_resolve policies.rows request.table
    .lookup false).echoes.reads_bind
      (fun _ hMirrors => (Tables.ensures_resolve rfl hSound
        hMirrors policies.rows request.table .lookup
        false).mono fun _ _ _ _ _ hFinds => hFinds.reads)
      fun found _ => ?_
  cases found with
  | none => exact (Parallel.done (.error _)).echoes
  | some table =>
      exact (echoes_getEach policies hSound table
        request.keys).reads_bind
          (fun _ hMirrors => ensures_getEach rfl hSound
            hMirrors policies table request.keys)
          fun items _ => (Parallel.pure id _).echoes

end Session

end SparseTables
