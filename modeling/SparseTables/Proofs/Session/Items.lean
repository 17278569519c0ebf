import SparseTables.Proofs.Contents.Views
import SparseTables.Proofs.Session.Dictionaries

/-
  This file shows what the calls on items do.  An item that
  is there is found, one that is to be created is added once,
  and its slots change all together or not at all.

  Main declarations:
    * `Items.ensures_resolve`
    * `Items.ensures_byId`
    * `Items.Commits`
    * `Items.ensures_setSlots`
    * `Items.ensures_remove`
-/

namespace SparseTables

namespace Items

variable {setup : Setup}
variable {contents : Contents} {caches : Caches}

------------------------------------------------------------
-- Finding
------------------------------------------------------------

/- What a search for an item ends with. -/
abbrev Finds
    (setup : Setup)
    (start : Contents)
    (check : Except Error Unit)
    (tableId valueId : Int)
    (intent : Intent) : Program.Post (Option Int) :=
  Program.Finds setup start check
    (fun contents => contents.itemOf? tableId valueId)
    ItemRow.id intent fun row =>
      row.created = setup.clock.cell ∧
        row.modified = setup.clock.cell

/-
  An item may be created if its table and its key exist and
  are of one kind.
-/
def MayCreate
    (contents : Contents)
    (tableId valueId : Int) : Prop :=
  ∃ table ∈ contents.tables.rows,
    ∃ key ∈ contents.values.rows,
      table.id = tableId ∧ key.id = valueId ∧
        key.content.isNumeric = table.numeric

theorem MayCreate.grows
    {after : Contents}
    {tableId valueId : Int}
    (hMay : MayCreate contents tableId valueId)
    (hGrows : contents.Grows after) :
    MayCreate after tableId valueId := by
  rcases hMay with ⟨table, hTable, key, hKey, hRest⟩
  exact ⟨table, hGrows.tables.mem hTable, key,
    hGrows.values.mem hKey, hRest⟩

theorem ensures_findOrAdd
    (hFree : setup.saved = none)
    {start : Contents}
    {tableId valueId : Int}
    {intent : Intent}
    (hMay : intent = .create →
      MayCreate contents tableId valueId)
    (hSound : contents.Sound)
    (hSought : start.Sought
      (fun contents => contents.itemOf? tableId valueId)
      intent
      (fun row => row.created = setup.clock.cell ∧
        row.modified = setup.clock.cell) contents)
    (hMirrors : caches.Mirrors contents) :
    (findOrAdd tableId valueId intent).Ensures setup
      contents caches
      (Finds setup start (.ok ()) tableId valueId
        intent) := by
  refine Program.ensures_read_bind hFree hSound rfl ?_
    fun hTrouble error => ⟨hSought, hMirrors, Or.inl hTrouble⟩
  cases hFind : contents.itemOf? tableId valueId with
  | some row =>
      exact Program.ensures_found hSought hFind
        (Program.ensures_gives hSound hMirrors _)
  | none =>
      cases intent with
      | lookup =>
          exact Program.ensures_unfound hSound hMirrors
            hSought hFind
      | create =>
          rcases hMay rfl with
            ⟨table, hTable, key, hKey, rfl, rfl, hKind⟩
          apply Program.ensures_added hFree hSound hMirrors
            hSought hFind
          · intro id after hAdd
            rcases hSound.addItem hTable hKey hKind hAdd with
              ⟨hAfter, hGrows, hNew⟩
            refine ⟨hAfter, hGrows, _, hNew, ⟨rfl, rfl⟩, ?_⟩
            intro caches hMirrors
            exact Program.ensures_gives hAfter hMirrors _
          · intro error hAdd
            have hFindTable :=
              hSound.table?_eq_some_iff.2 ⟨hTable, rfl⟩
            have hFindKey :=
              hSound.value?_eq_some_iff.2 ⟨hKey, rfl⟩
            simp [Statement.run, Contents.addItem, hFind,
              hFindTable, hFindKey] at hAdd

/- The item under a key is found or created. -/
theorem ensures_resolve
    (hFree : setup.saved = none)
    (hSound : contents.Sound)
    (hMirrors : caches.Mirrors contents)
    (policy : Policy)
    {tableId valueId : Int}
    {intent : Intent}
    (hMay : intent = .create →
      MayCreate contents tableId valueId) :
    (resolve policy tableId valueId intent).Ensures setup
      contents caches
      (Finds setup contents (.ok ()) tableId valueId
        intent) :=
  Program.ensures_attempts policy _
    (fun _ _ hSound hSought hMirrors =>
      ensures_findOrAdd hFree
        (fun hCreate => (hMay hCreate).grows hSought.grows)
        hSound hSought hMirrors)
    hSound hMirrors

/- The item of an identity is found, if its times can be. -/
theorem ensures_byId
    (hFree : setup.saved = none)
    (hSound : contents.Sound)
    (hMirrors : caches.Mirrors contents)
    (key : Int) :
    (byId key).Ensures setup contents caches
      (Program.Reads setup contents fun outcome =>
        outcome = (contents.item? key).mapM ofRow) := by
  refine Program.ensures_read_bind hFree hSound rfl ?_
    fun hTrouble error =>
      Program.reads_refused hMirrors hTrouble error
  cases hFind : contents.item? key with
  | none =>
      exact Program.ensures_reads_pure hSound hMirrors rfl
  | some row =>
      refine Program.Ensures.map some
        (Program.ensures_done hSound
          ⟨rfl, hMirrors, Or.inl ?_⟩)
      cases hItem : ofRow row <;> simp [hItem] <;> rfl

------------------------------------------------------------
-- Changing
------------------------------------------------------------

/-
  What the parts of a transaction end with: the contents that
  they are to reach, unless a call of the store goes wrong.
-/
def Reaches
    {α : Type}
    (setup : Setup)
    (caches : Caches)
    (target : Contents) : Program.Post α :=
  fun outcome after kept =>
    kept = caches ∧
      match outcome with
      | .ok _ => after = target
      | .error _ => setup.trouble ≠ .none

/-
  What a transaction ends with.  If it fails nothing has
  changed, unless the answer of its commit was lost.
-/
def Commits
    {α : Type}
    (setup : Setup)
    (caches : Caches)
    (contents target : Contents) : Program.Post α :=
  fun outcome after kept =>
    kept = caches ∧
      match outcome with
      | .ok _ => after = target
      | .error _ =>
          setup.trouble ≠ .none ∧
            (after = contents ∨
              setup.trouble = .any ∧ after = target)

theorem ensures_commits
    {α : Type}
    (hFree : setup.saved = none)
    (hSound : contents.Sound)
    {body : Program α}
    {target : Contents}
    (hBody : body.Ensures (setup.within contents) contents
      caches (Reaches (setup.within contents) caches
        target)) :
    (Program.transaction body).Ensures setup contents caches
      (Commits setup caches contents target) := by
  apply Program.ensures_transaction hFree hSound hBody
  · intro hTrouble error
    exact ⟨rfl, hTrouble, Or.inl rfl⟩
  · intro error after kept hReaches
    rcases hReaches with ⟨rfl, hTrouble⟩
    exact ⟨rfl, hTrouble, Or.inl rfl⟩
  · intro hTrouble found error after kept hReaches
    rcases hReaches with ⟨rfl, -⟩
    exact ⟨rfl, hTrouble, Or.inl rfl⟩
  · intro hAny found error after kept hReaches
    rcases hReaches with ⟨rfl, hAfter⟩
    exact ⟨rfl, by simp [hAny], Or.inr ⟨hAny, hAfter⟩⟩
  · intro found after kept _ _ hReaches
    rcases hReaches with ⟨rfl, hAfter⟩
    exact ⟨rfl, hAfter⟩

/- Changes are made one after another. -/
theorem ensures_applyChanges
    (hSound : contents.Sound)
    {item : ItemRow}
    (hItem : item ∈ contents.items.rows)
    {itemId : Int}
    (hId : item.id = itemId)
    {changes : List SlotChange}
    (hFits : ∀ change ∈ changes,
      contents.ChangeFits item.tableId change) :
    (applyChanges itemId changes).Ensures setup contents
      caches (Reaches setup caches
        (contents.applyChanges itemId changes)) := by
  subst hId
  induction changes generalizing contents with
  | nil => exact Program.ensures_pure hSound ⟨rfl, rfl⟩
  | cons change rest ih =>
      have hChange := hSound.applyChange hItem
        (hFits change List.mem_cons_self)
      have hRest :
          (applyChanges item.id rest).Ensures setup
            (Contents.applyChange item.id contents change)
            caches (Reaches setup caches
              (contents.applyChanges item.id
                (change :: rest))) := by
        apply ih hChange
        · rw [Contents.applyChange_eq]
          exact hItem
        · intro later hLater
          rw [Contents.applyChange_eq]
          exact hFits later (List.mem_cons_of_mem _ hLater)
      have hCleared := hSound.removeSlots
        (Contents.isSlot item.id change.attributeId)
      refine Program.ensures_runHeld_bind hSound rfl hCleared
        ?_ fun hTrouble _ _ => ⟨rfl, hTrouble⟩
      unfold Contents.applyChange at hChange hRest
      cases hValue : change.valueId with
      | none =>
          simp only [hValue] at hRest
          exact hRest
      | some valueId =>
          simp only [hValue] at hChange hRest
          exact Program.ensures_runHeld_bind hCleared rfl
            hChange hRest fun hTrouble _ _ => ⟨rfl, hTrouble⟩

/- The changes of an item with its time. -/
theorem ensures_touchAndApply
    (hSound : contents.Sound)
    {item : ItemRow}
    (hItem : item ∈ contents.items.rows)
    {changes : List SlotChange}
    (hFits : ∀ change ∈ changes,
      contents.ChangeFits item.tableId change) :
    (do
      let touched ← Program.runHeld (.touchItem item.id)
      if touched = 0 then
        throw (.notFound ("item " ++ toString item.id))
      applyChanges item.id changes : Program Unit).Ensures
        setup contents caches
        (Reaches setup caches
          ((contents.touch item.id
            setup.clock.cell).2.applyChanges item.id
              changes)) := by
  have hTouched := hSound.touch item.id setup.clock.cell
  have hRuns :
      (Statement.touchItem item.id).run setup.clock
          contents =
        .ok (contents.touch item.id setup.clock.cell) :=
    rfl
  refine Program.ensures_runHeld_bind hSound hRuns hTouched
    ?_ fun hTrouble _ _ => ⟨rfl, hTrouble⟩
  change (if (contents.touch item.id
      setup.clock.cell).1 = 0 then _
    else applyChanges item.id changes).Ensures _ _ _ _
  rw [if_neg (Contents.touch_count hItem _)]
  have hMoved :
      Contents.touched item.id setup.clock.cell item ∈
        (contents.touch item.id
          setup.clock.cell).2.items.rows :=
    List.mem_map_of_mem hItem
  have hFitsStill : ∀ change ∈ changes,
      (contents.touch item.id
        setup.clock.cell).2.ChangeFits
          (Contents.touched item.id setup.clock.cell
            item).tableId change := by
    rw [Contents.tableId_touched]
    exact hFits
  exact ensures_applyChanges hTouched hMoved
    (Contents.id_touched _ _ item) hFitsStill

/-
  Slots change with the time of the last change of their
  item, in one transaction.
-/
theorem ensures_setSlots
    (hFree : setup.saved = none)
    (hSound : contents.Sound)
    {item : ItemRow}
    (hItem : item ∈ contents.items.rows)
    {changes : List SlotChange}
    (hFits : ∀ change ∈ changes,
      contents.ChangeFits item.tableId change) :
    (setSlots item.id changes).Ensures setup contents caches
      (Commits setup caches contents
        ((contents.touch item.id
          setup.clock.cell).2.applyChanges item.id
            changes)) :=
  ensures_commits hFree hSound
    (ensures_touchAndApply hSound hItem hFits)

------------------------------------------------------------
-- Removing
------------------------------------------------------------

/- Items are removed one after another. -/
theorem ensures_removeEach
    (hSound : contents.Sound)
    (ids : List Int) :
    (removeEach ids).Ensures setup contents caches
      (Reaches setup caches
        (contents.removeItems fun row =>
          ids.contains row.id).2) := by
  induction ids generalizing contents with
  | nil =>
      refine Program.ensures_pure hSound ⟨rfl, ?_⟩
      simp [Contents.removeItems, Register.remove]
  | cons first rest ih =>
      have hAfter := hSound.removeItems fun row =>
        row.id == first
      refine Program.ensures_runHeld_bind hSound rfl hAfter
        ?_ fun hTrouble _ _ => ⟨rfl, hTrouble⟩
      refine (ih hAfter).bind ?_ fun _ _ _ _ _ hPost => hPost
      intro count after kept hSound _ hEnd
      rcases hEnd with ⟨rfl, hMore⟩
      refine Program.ensures_pure hSound ⟨rfl, ?_⟩
      rw [hMore]
      simp only [Contents.removeItems, Register.remove,
        List.filter_filter, List.contains_cons,
        Bool.not_or, Bool.and_comm]

/- Items are removed all together, in one transaction. -/
theorem ensures_remove
    (hFree : setup.saved = none)
    (hSound : contents.Sound)
    (ids : List Int) :
    (remove ids).Ensures setup contents caches
      (Commits setup caches contents
        (contents.removeItems fun row =>
          ids.contains row.id).2) :=
  ensures_commits hFree hSound
    (ensures_removeEach hSound ids)

end Items

end SparseTables
