import SparseTables.Proofs.Program.Settled
import SparseTables.Proofs.Session.Histories

/-
  This file shows that what a call answers and leaves in the
  store is settled by the contents of the store, as long as
  the caches mirror them and the store does not fail.

  A row that is to be created is added at the first attempt,
  under the next identity.

  Main declarations:
    * `Tables.settled_resolve`
    * `Attributes.settled_resolve`
    * `Values.settled_resolve`
    * `Items.settled_resolve`
    * `Session.settled_define`
    * `Session.settled_dropTable`
    * `Session.Call.settled`
-/

namespace SparseTables

variable {setup : Setup} {contents : Contents}

------------------------------------------------------------
-- Dictionaries
------------------------------------------------------------

/- A search either adds nothing or is for a new row. -/
theorem Intent.lookup_or_absent
    {ρ : Type}
    (intent : Intent)
    (found : Option ρ) :
    (intent = .lookup ∨ found.isSome) ∨
      intent = .create ∧ found = none := by
  cases intent <;> cases found <;> simp

/- The table that is found or created is always the same. -/
theorem Tables.settled_resolve
    (hFree : setup.saved = none)
    (hCalm : setup.trouble = .none)
    (hSound : contents.Sound)
    (policy : Policy)
    (name : String)
    (intent : Intent)
    (numeric : Bool) :
    (resolve policy name intent numeric).Settled setup
      contents := by
  rcases intent.lookup_or_absent (contents.tableNamed? name)
    with hThere | ⟨rfl, hAbsent⟩
  · exact Program.settled_of_finds hCalm
      (fun _ hMirrors => ensures_resolve hFree hSound hMirrors
        policy name intent numeric) hThere
  refine Program.settled_check hSound fun _ _ => ?_
  cases hAdd : contents.addTable name numeric with
  | error error => simp [Contents.addTable, hAbsent] at hAdd
  | ok added =>
      rcases added with ⟨id, target⟩
      rcases hSound.addTable hAdd with ⟨hTarget, hGrows, hNew⟩
      have hRow := (hTarget.tableNamed?_eq_some_iff.1 hNew).1
      have hRun : (Statement.addTable name numeric).run
          setup.clock contents = .ok (id, target) := hAdd
      have hFirst (caches : Caches)
          (hMirrors : caches.Mirrors contents) :
          (findOrAdd name .create numeric).Ensures setup
            contents caches (Program.Gives target
              (some ⟨id, name, numeric⟩)) := by
        refine Program.ensures_read_bind hFree hSound rfl ?_
          fun hTrouble => absurd hCalm hTrouble
        rw [hAbsent]
        exact Program.ensures_adds hFree hCalm hSound hRun
          hTarget ((Program.ensures_keepTable hTarget
            (hMirrors.grows hGrows) hRow).gives_map some)
      refine Program.settled_first_attempt policy "Tables.get_id"
        hSound (fun caches hMirrors => ?_) hFirst
      cases hKept : caches.tables.get? name with
      | none => rfl
      | some row =>
          have hFind := hSound.tableNamed?_eq_some_iff.2
            (hMirrors.tables.get?_eq_some hKept)
          rw [hAbsent] at hFind
          cases hFind

/- So is the attribute. -/
theorem Attributes.settled_resolve
    (hFree : setup.saved = none)
    (hCalm : setup.trouble = .none)
    (hSound : contents.Sound)
    (policy : Policy)
    {tableId : Int}
    (hTable : (contents.table? tableId).isSome)
    (name : String)
    (intent : Intent)
    (numeric : Bool) :
    (resolve policy tableId name intent numeric).Settled setup
      contents := by
  rcases intent.lookup_or_absent
    (contents.attributeNamed? tableId name)
    with hThere | ⟨rfl, hAbsent⟩
  · exact Program.settled_of_finds hCalm
      (fun _ hMirrors => ensures_resolve hFree hSound hMirrors
        policy hTable name intent numeric) hThere
  refine Program.settled_check hSound fun _ _ => ?_
  cases hAdd : contents.addAttribute tableId name numeric with
  | error error =>
      simp [Contents.addAttribute, hAbsent,
        Option.isSome_iff_ne_none.1 hTable] at hAdd
  | ok added =>
      rcases added with ⟨id, target⟩
      rcases hSound.addAttribute hAdd with
        ⟨hTarget, hGrows, hNew⟩
      have hRow :=
        (hTarget.attributeNamed?_eq_some_iff.1 hNew).1
      have hRun :
          (Statement.addAttribute tableId name numeric).run
            setup.clock contents = .ok (id, target) := hAdd
      have hFirst (caches : Caches)
          (hMirrors : caches.Mirrors contents) :
          (findOrAdd tableId name .create numeric).Ensures
            setup contents caches (Program.Gives target
              (some ⟨id, tableId, name, numeric⟩)) := by
        refine Program.ensures_read_bind hFree hSound rfl ?_
          fun hTrouble => absurd hCalm hTrouble
        rw [hAbsent]
        exact Program.ensures_adds hFree hCalm hSound hRun
          hTarget ((Program.ensures_keepAttribute hTarget
            (hMirrors.grows hGrows) hRow).gives_map some)
      refine Program.settled_first_attempt policy "Names.get_id"
        hSound (fun caches hMirrors => ?_) hFirst
      cases hKept : caches.attributes.get? (tableId, name) with
      | none => rfl
      | some row =>
          have hRow := hMirrors.attributes.get?_eq_some hKept
          have hFind := hSound.attributeNamed?_eq_some_iff.2
            ⟨hRow.1, Prod.mk.inj hRow.2⟩
          rw [hAbsent] at hFind
          cases hFind

/- So is the identity of a scalar. -/
theorem Values.settled_resolve
    (hFree : setup.saved = none)
    (hCalm : setup.trouble = .none)
    (hSound : contents.Sound)
    (policy : Policy)
    (content : Scalar)
    (intent : Intent) :
    (resolve policy content intent).Settled setup
      contents := by
  rcases intent.lookup_or_absent (contents.valueOf? content)
    with hThere | ⟨rfl, hAbsent⟩
  · exact Program.settled_of_finds hCalm
      (fun _ hMirrors => ensures_resolve hFree hSound hMirrors
        policy content intent) hThere
  refine Program.settled_check hSound fun _ hCheck => ?_
  have hStorable := isStorable_of_check hCheck
  cases hAdd : contents.addValue content with
  | error error => simp [Contents.addValue, hAbsent] at hAdd
  | ok added =>
      rcases added with ⟨id, target⟩
      rcases hSound.addValue hStorable hAdd with
        ⟨hTarget, hGrows, hNew⟩
      have hRow := (hTarget.valueOf?_eq_some_iff.1 hNew).1
      have hRun : (Statement.addValue content).run
          setup.clock contents = .ok (id, target) := hAdd
      have hFirst (caches : Caches)
          (hMirrors : caches.Mirrors contents) :
          (findOrAdd content .create).Ensures setup contents
            caches (Program.Gives target (some id)) := by
        refine Program.ensures_read_bind hFree hSound rfl ?_
          fun hTrouble => absurd hCalm hTrouble
        rw [hAbsent]
        exact Program.ensures_adds hFree hCalm hSound hRun
          hTarget ((Program.ensures_keepValue hTarget
            (hMirrors.grows hGrows) hRow).gives_map
              fun _ => some id)
      refine Program.settled_first_attempt policy "Values.get_id"
        hSound (fun caches hMirrors => ?_) hFirst
      cases hKept : caches.values.get? content with
      | none => rfl
      | some key =>
          have hFind := hSound.valueOf?_eq_some_iff.2
            ⟨hMirrors.values.get?_eq_some hKept, rfl⟩
          rw [hAbsent] at hFind
          cases hFind

------------------------------------------------------------
-- Items
------------------------------------------------------------

namespace Items

/- Items are found without the caches. -/
theorem blind_resolve
    (policy : Policy)
    (tableId valueId : Int)
    (intent : Intent) :
    (resolve policy tableId valueId intent).Blind := by
  refine .attempts policy _ ((Program.Blind.run _).bind ?_)
  rintro (_ | row)
  · cases intent with
    | lookup => trivial
    | create =>
        exact (Program.Blind.run (.addItem tableId
          valueId)).bind fun _ => trivial
  · trivial

theorem blind_applyChanges
    (id : Int)
    (changes : List SlotChange) :
    (applyChanges id changes).Blind := by
  induction changes with
  | nil => trivial
  | cons change rest ih =>
      refine (Program.Blind.runHeld _).bind fun _ => ?_
      cases change.valueId with
      | none => exact ih
      | some valueId =>
          exact (Program.Blind.runHeld (.addSlot ⟨id,
            change.attributeId, valueId⟩)).bind fun _ => ih

theorem blind_setSlots
    (id : Int)
    (changes : List SlotChange) :
    (setSlots id changes).Blind := by
  refine .transaction ((Program.Blind.runHeld
    (.touchItem id)).bind fun touched => ?_)
  by_cases hNone : touched = 0
  · simp only [hNone, ↓reduceIte]
    trivial
  · simp only [hNone, ↓reduceIte]
    exact blind_applyChanges id changes

theorem blind_remove (ids : List Int) : (remove ids).Blind := by
  apply Program.Blind.transaction
  induction ids with
  | nil => trivial
  | cons id rest ih =>
      exact (Program.Blind.runHeld (.removeItem id)).bind
        fun _ => ih.bind fun _ => trivial

theorem settled_resolve
    (hFree : setup.saved = none)
    (hCalm : setup.trouble = .none)
    (hSound : contents.Sound)
    (policy : Policy)
    {tableId valueId : Int}
    {intent : Intent}
    (hMay : intent = .create →
      MayCreate contents tableId valueId) :
    (resolve policy tableId valueId intent).Settled setup
      contents :=
  (blind_resolve policy tableId valueId intent).settled hCalm
    fun _ hMirrors => (ensures_resolve hFree hSound hMirrors
      policy hMay).mono fun _ _ _ _ _ hFinds => hFinds.2.1

theorem settled_setSlots
    (hFree : setup.saved = none)
    (hCalm : setup.trouble = .none)
    (hSound : contents.Sound)
    {item : ItemRow}
    (hItem : item ∈ contents.items.rows)
    {changes : List SlotChange}
    (hFits : ∀ change ∈ changes,
      contents.ChangeFits item.tableId change) :
    (setSlots item.id changes).Settled setup contents := by
  refine (blind_setSlots item.id changes).settled hCalm
    fun caches hMirrors => ?_
  apply (ensures_setSlots hFree hSound hItem hFits).mono
  rintro outcome after _ - - ⟨rfl, hEnd⟩
  cases outcome with
  | ok _ =>
      rw [show after = _ from hEnd, Contents.applyChanges_eq]
      exact { hMirrors with }
  | error error => exact absurd hCalm hEnd.1

theorem settled_remove
    (hFree : setup.saved = none)
    (hCalm : setup.trouble = .none)
    (hSound : contents.Sound)
    (ids : List Int) :
    (remove ids).Settled setup contents := by
  refine (blind_remove ids).settled hCalm
    fun caches hMirrors => ?_
  apply (ensures_remove hFree hSound ids).mono
  rintro outcome after _ - - ⟨rfl, hEnd⟩
  cases outcome with
  | ok _ =>
      rw [show after = _ from hEnd]
      exact { hMirrors with }
  | error error => exact absurd hCalm hEnd.1

end Items

namespace Session

------------------------------------------------------------
-- Defining
------------------------------------------------------------

/- What becomes of one entry is always the same. -/
theorem settled_changeOf
    (hFree : setup.saved = none)
    (hCalm : setup.trouble = .none)
    (hSound : contents.Sound)
    (policies : Policies)
    {tableId : Int}
    (hTable : (contents.table? tableId).isSome)
    (name : String)
    (content : Option Scalar) :
    (changeOf policies tableId name content).Settled setup
      contents := by
  cases content with
  | none =>
      exact (Attributes.settled_resolve hFree hCalm hSound
        policies.rows hTable name .lookup false).seq
          fun _ _ hAfter =>
            Program.settled_done hAfter (.ok _)
  | some content =>
      refine Program.settled_check hSound fun _ _ => ?_
      refine (Attributes.settled_resolve hFree hCalm hSound
        policies.rows hTable name .create
        content.isNumeric).created
          (fun _ hMirrors => Attributes.ensures_resolve hFree
            hSound hMirrors policies.rows hTable name .create
            content.isNumeric) _ fun row after hAfter _ _ _ =>
          ?_
      refine Program.settled_check hAfter fun _ _ => ?_
      exact (Values.settled_resolve hFree hCalm hAfter
        policies.values content .create).created
          (fun _ hMirrors => Values.ensures_resolve hFree
            hAfter hMirrors policies.values content .create) _
          fun _ _ hLast _ _ _ =>
            Program.settled_done hLast (.ok _)

/- So is what becomes of all entries. -/
theorem settled_changesOf
    (hFree : setup.saved = none)
    (hCalm : setup.trouble = .none)
    (hSound : contents.Sound)
    (policies : Policies)
    {item : ItemRow}
    {changes : List SlotChange}
    {metadata : Metadata}
    (hPending : contents.Pending item changes metadata)
    (entries : List (String × Option Scalar)) :
    (changesOf policies item.tableId entries).Settled setup
      contents := by
  induction entries generalizing contents changes
      metadata with
  | nil => exact Program.settled_done hSound (.ok [])
  | cons entry rest ih =>
      rcases entry with ⟨name, content⟩
      rcases hSound.itemsFit item hPending.isThere with
        ⟨table, hTable, -, -, hTableId, -⟩
      have hFind :=
        hSound.table?_eq_some_iff.2 ⟨hTable, hTableId⟩
      refine (settled_changeOf hFree hCalm hSound policies
        (by simp [hFind]) name content).bind
          (fun _ hMirrors => ensures_changeOf hFree hSound
            hMirrors policies hPending name content) ?_
      rintro first after _ hAfter - ⟨-, -, hFirst⟩
      exact (ih hAfter (hFirst first rfl)).seq
        fun _ _ hLast => Program.settled_done hLast (.ok _)

/- The last part: the item is there, and its slots change. -/
theorem settled_defineSlots
    (hFree : setup.saved = none)
    (hCalm : setup.trouble = .none)
    (hSound : contents.Sound)
    (policies : Policies)
    {item : ItemRow}
    (hItem : item ∈ contents.items.rows)
    (entries : List (String × Option Scalar)) :
    (do
      let changes ← changesOf policies item.tableId entries
      Items.setSlots item.id changes
      pure item.id : Program Int).Settled setup
        contents := by
  have hPending := Contents.Pending.nil hSound hItem
  refine (settled_changesOf hFree hCalm hSound policies
    hPending entries).bind
      (fun _ hMirrors => ensures_changesOf hFree hSound
        hMirrors policies hPending entries) ?_
  rintro changes after _ hAfter - ⟨-, -, hChanges⟩
  have hPending := hChanges changes rfl
  exact (Items.settled_setSlots hFree hCalm hAfter
    hPending.isThere hPending.fits).seq fun _ _ hLast =>
      Program.settled_done hLast (.ok _)

/- What defining an item does is always the same. -/
theorem settled_define
    (hFree : setup.saved = none)
    (hCalm : setup.trouble = .none)
    (hSound : contents.Sound)
    (policies : Policies)
    (request : Define) :
    (define policies request).Settled setup contents := by
  refine Program.settled_check hSound fun _ _ => ?_
  refine (Tables.settled_resolve hFree hCalm hSound
    policies.rows request.table .create
    request.key.isNumeric).created
      (fun _ hMirrors => Tables.ensures_resolve hFree hSound
        hMirrors policies.rows request.table .create
        request.key.isNumeric) _ ?_
  intro table first hFirst hGrows _ hFound
  refine Program.settled_check hFirst fun _ hKind => ?_
  refine (Values.settled_resolve hFree hCalm hFirst
    policies.values request.key .create).created
      (fun _ hMirrors => Values.ensures_resolve hFree hFirst
        hMirrors policies.values request.key .create) _ ?_
  intro key second hSecond hMore _ hKey
  have hTable := hMore.tableNamed?_eq_some hFound
  have hMay := mayCreate_of_checkKind hSecond hTable hKey hKind
  refine (Items.settled_resolve hFree hCalm hSecond
    policies.rows fun _ => hMay).created
      (fun _ hMirrors => Items.ensures_resolve hFree hSecond
        hMirrors policies.rows fun _ => hMay) _ ?_
  intro item third hThird _ _
    (hItem : third.itemOf? table.id key.id = some item)
  rcases hThird.itemOf?_eq_some_iff.1 hItem with
    ⟨hRow, hTableId, -⟩
  change (do
    let changes ← changesOf policies table.id request.entries
    Items.setSlots item.id changes
    pure item.id : Program Int).Settled _ _
  rw [← hTableId]
  exact settled_defineSlots hFree hCalm hThird policies hRow
    request.entries

theorem settled_createTable
    (hFree : setup.saved = none)
    (hCalm : setup.trouble = .none)
    (hSound : contents.Sound)
    (policies : Policies)
    (name : String)
    (numeric : Bool) :
    (createTable policies name numeric).Settled setup
      contents :=
  (Tables.settled_resolve hFree hCalm hSound policies.rows
    name .create numeric).created
      (fun _ hMirrors => Tables.ensures_resolve hFree hSound
        hMirrors policies.rows name .create numeric) _
      fun _ _ hAfter _ _ _ =>
        Program.settled_done hAfter (.ok ())

------------------------------------------------------------
-- Removing
------------------------------------------------------------

/- Items that are found are removed. -/
theorem settled_delete
    (hFree : setup.saved = none)
    (hCalm : setup.trouble = .none)
    (hSound : contents.Sound)
    (policies : Policies)
    (name : String)
    (keys : List Scalar) :
    (delete policies name keys).Settled setup contents := by
  refine (Tables.settled_resolve hFree hCalm hSound
    policies.rows name .lookup false).seq ?_
  rintro (_ | table) after hAfter
  · exact Program.settled_done hAfter (.ok ())
  have hDoomed : (itemsUnder policies table keys).Settled
      setup after :=
    Program.settled_of_reads hCalm fun _ hMirrors =>
      ensures_itemsUnder hFree hAfter hMirrors policies table
        keys
  refine hDoomed.seq fun doomed _ hStill => ?_
  exact (Items.settled_remove hFree hCalm hStill doomed).seq
    fun _ _ hLast => Program.settled_done hLast (.ok ())

/- The rows of a table are removed without the caches. -/
theorem blind_drop (tableId : Int) :
    (do
      Attributes.purge tableId
      Items.purge tableId
      Tables.remove tableId : Program Unit).Blind := by
  refine Program.Blind.bind ?_ fun _ => .bind ?_ fun _ => ?_
  · exact (Program.Blind.run _).bind fun _ =>
      (Program.Blind.run _).bind fun _ => trivial
  · exact (Program.Blind.run _).bind fun _ =>
      (Program.Blind.run _).bind fun _ =>
        (Program.Blind.run _).bind fun _ => trivial
  · exact (Program.Blind.run _).bind fun _ => trivial

/- A table is looked up with empty caches. -/
theorem settled_dropTable
    (hFree : setup.saved = none)
    (hCalm : setup.trouble = .none)
    (hSound : contents.Sound)
    (policies : Policies)
    (name : String) :
    (dropTable policies name).Settled setup contents := by
  refine Program.settled_clearCaches hSound ?_
  refine (Tables.settled_resolve hFree hCalm hSound
    policies.rows name .lookup false).seq ?_
  rintro (_ | table) after hAfter
  · exact Program.settled_done hAfter (.ok ())
  · refine Program.Blind.settled ?_ hCalm fun _ _ =>
      ensures_clearing (ensures_drop hFree hAfter table.id)
    exact (blind_drop table.id).attempt.clearing
      fun _ => trivial

/- Everything is removed without the caches. -/
theorem blind_wipes (dictionaries : Bool) :
    (do
      Items.reset
      if dictionaries then
        Values.reset
        Attributes.reset
        Tables.reset : Program Unit).Blind := by
  refine Program.Blind.bind ?_ fun _ => ?_
  · exact (Program.Blind.run _).bind fun _ =>
      (Program.Blind.run _).bind fun _ => trivial
  cases dictionaries with
  | false => trivial
  | true =>
      exact Program.Blind.bind ((Program.Blind.run _).bind
        fun _ => trivial) fun _ => Program.Blind.bind
          ((Program.Blind.run _).bind fun _ => trivial)
          fun _ => (Program.Blind.run _).bind
            fun _ => trivial

theorem settled_reset
    (hFree : setup.saved = none)
    (hCalm : setup.trouble = .none)
    (hSound : contents.Sound)
    (dictionaries : Bool) :
    (reset dictionaries).Settled setup contents := by
  refine Program.Blind.settled ?_ hCalm fun _ _ =>
    ensures_reset hFree hSound dictionaries
  exact (blind_wipes dictionaries).attempt.clearing
    fun _ => trivial

------------------------------------------------------------
-- Calls
------------------------------------------------------------

namespace Call

/-
  What is seen of an outcome: all of it, but the two zeros
  are one scalar in the answers that give attributes.
-/
def seen : (call : Call) →
    Except Error call.Answer → Except Error call.Answer
  | get _, outcome | queryGet _, outcome =>
      outcome.map GetResponse.normalized
  | define _, outcome | createTable _ _, outcome
  | delete _ _, outcome | dropTable _, outcome
  | reset _, outcome | item _, outcome
  | summarize _, outcome | schema _, outcome
  | compile _, outcome | select _, outcome
  | scalar _, outcome | integer _, outcome
  | list _, outcome | pairs _, outcome
  | rowId _ _, outcome | rowValue _ _, outcome => outcome

/-
  A summary shows which zero was kept last, and so it is the
  only answer that the caches have a part in.
-/
def IsSummary : Call → Prop
  | summarize _ => True
  | _ => False

/- What is seen of a call is settled by the contents. -/
theorem settled
    (hFree : setup.saved = none)
    (hCalm : setup.trouble = .none)
    (hSound : contents.Sound)
    (policies : Policies)
    (call : Call)
    (hCall : ¬call.IsSummary) :
    (call.program policies).SettledAs call.seen setup
      contents := by
  cases call with
  | define request =>
      exact settled_define hFree hCalm hSound policies request
  | createTable name numeric =>
      exact settled_createTable hFree hCalm hSound policies
        name numeric
  | delete name keys =>
      exact settled_delete hFree hCalm hSound policies name
        keys
  | dropTable name =>
      exact settled_dropTable hFree hCalm hSound policies name
  | reset dictionaries =>
      exact settled_reset hFree hCalm hSound dictionaries
  | get request =>
      exact Program.settled_of_reads hCalm fun _ hMirrors =>
        ensures_get hFree hSound hMirrors policies request
  | queryGet query =>
      exact Program.settled_of_reads hCalm fun _ hMirrors =>
        ensures_queryGet hFree hSound hMirrors policies query
  | item id =>
      exact Program.settled_of_reads hCalm fun _ hMirrors =>
        Items.ensures_byId hFree hSound hMirrors id
  | summarize id => exact absurd trivial hCall
  | schema table =>
      exact Program.settled_of_reads hCalm fun _ hMirrors =>
        ensures_schema hFree hSound hMirrors table
  | compile query =>
      exact Program.settled_of_reads hCalm fun _ hMirrors =>
        ensures_compile hFree hSound hMirrors policies query
  | select query =>
      exact Program.settled_of_reads hCalm fun _ hMirrors =>
        ensures_select hFree hSound hMirrors policies query
  | scalar query =>
      exact Program.settled_of_reads hCalm fun _ hMirrors =>
        ensures_scalar hFree hSound hMirrors policies query
  | integer query =>
      exact Program.settled_of_reads hCalm fun _ hMirrors =>
        ensures_integer hFree hSound hMirrors policies query
  | list query =>
      exact Program.settled_of_reads hCalm fun _ hMirrors =>
        ensures_list hFree hSound hMirrors policies query
  | pairs query =>
      exact Program.settled_of_reads hCalm fun _ hMirrors =>
        ensures_pairs hFree hSound hMirrors policies query
  | rowId table key =>
      exact Program.settled_of_reads hCalm fun _ hMirrors =>
        ensures_rowId hFree hSound hMirrors policies table key
  | rowValue table id =>
      exact Program.settled_of_reads hCalm fun _ hMirrors =>
        ensures_rowValue hFree hSound hMirrors policies table
          id

end Call

end Session

end SparseTables
