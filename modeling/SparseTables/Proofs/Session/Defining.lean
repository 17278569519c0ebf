import SparseTables.Proofs.Session.Reading

/-
  This file shows what it means to define an item.

  The entries of a request are turned into changes of slots
  one after another, and all changes are made at the end.
  What is carried along is that the changes collected so far
  would make of the item's attributes what the entries so far
  make of them.  New names and values do not disturb this.

  Main declarations:
    * `Contents.Pending`
    * `Session.ensures_changeOf`
    * `Session.ensures_changesOf`
    * `Contents.Defined`
    * `Session.ensures_define`
-/

namespace SparseTables

------------------------------------------------------------
-- Changes that are still to be made
------------------------------------------------------------

namespace Contents

/-
  Changes of an item that could be made, and the attributes
  that the item would have then.
-/
structure Pending
    (contents : Contents)
    (item : ItemRow)
    (changes : List SlotChange)
    (metadata : Metadata) : Prop where
  isThere : item ∈ contents.items.rows
  fits : ∀ change ∈ changes,
    contents.ChangeFits item.tableId change
  shown :
    (contents.applyChanges item.id changes).metadata item.id =
      metadata.normalized

namespace Pending

variable {contents : Contents} {item : ItemRow}
variable {changes : List SlotChange} {metadata : Metadata}

/- No changes leave the attributes as they are. -/
theorem nil
    (hSound : contents.Sound)
    (hItem : item ∈ contents.items.rows) :
    contents.Pending item [] (contents.metadata item.id) :=
  ⟨hItem, by simp, (hSound.metadata_normalized hItem).symm⟩

theorem sound
    (hPending : contents.Pending item changes metadata)
    (hSound : contents.Sound) :
    (contents.applyChanges item.id changes).Sound :=
  hSound.applyChanges hPending.isThere hPending.fits

/- New rows do not disturb what is pending. -/
theorem grows
    (hPending : contents.Pending item changes metadata)
    (hSound : contents.Sound)
    {after : Contents}
    (hGrows : contents.Grows after) :
    after.Pending item changes metadata := by
  refine ⟨hGrows.items.mem hPending.isThere,
    fun change hChange =>
      hGrows.changeFits (hPending.fits change hChange), ?_⟩
  rw [← hPending.shown]
  exact (hPending.sound hSound).metadata_grows
    (hGrows.applyChanges item.id changes) item.id

/- One more change sets an attribute. -/
theorem insert
    (hPending : contents.Pending item changes metadata)
    (hSound : contents.Sound)
    {attr_ : Attribute}
    (hAttr : attr_ ∈ contents.attributes.rows)
    (hTable : attr_.tableId = item.tableId)
    {value : Value}
    (hValue : value ∈ contents.values.rows)
    {content : Scalar}
    (hContent : value.content = content.normalized)
    (hKind : content.isNumeric = attr_.numeric) :
    contents.Pending item
      (changes ++ [⟨attr_.id, some value.id⟩])
      (metadata.insert attr_.name content) := by
  have hKind : value.content.isNumeric = attr_.numeric := by
    rw [hContent, Scalar.isNumeric_normalized, hKind]
  refine ⟨hPending.isThere, ?_, ?_⟩
  · intro change hChange
    rcases List.mem_append.1 hChange with hOld | hNew
    · exact hPending.fits change hOld
    · rw [List.mem_singleton.1 hNew]
      refine ⟨attr_, hAttr, rfl, hTable, ?_⟩
      intro _ hSame
      cases hSame
      exact ⟨value, hValue, rfl, hKind⟩
  · rw [applyChanges_concat,
      (hPending.sound hSound).metadata_set
        (by simpa using hPending.isThere)
        (by simpa using hAttr) hTable
        (by simpa using hValue) hKind,
      hPending.shown, hContent]
    exact (NameMap.map_insert metadata _ _ _).symm

/- One more change erases an attribute. -/
theorem erase
    (hPending : contents.Pending item changes metadata)
    (hSound : contents.Sound)
    {attr_ : Attribute}
    (hAttr : attr_ ∈ contents.attributes.rows)
    (hTable : attr_.tableId = item.tableId) :
    contents.Pending item (changes ++ [⟨attr_.id, none⟩])
      (metadata.erase attr_.name) := by
  refine ⟨hPending.isThere, ?_, ?_⟩
  · intro change hChange
    rcases List.mem_append.1 hChange with hOld | hNew
    · exact hPending.fits change hOld
    · rw [List.mem_singleton.1 hNew]
      exact ⟨attr_, hAttr, rfl, hTable, by rintro _ ⟨⟩⟩
  · rw [applyChanges_concat,
      (hPending.sound hSound).metadata_erase
        (by simpa using hPending.isThere)
        (by simpa using hAttr) hTable,
      hPending.shown]
    exact (NameMap.map_erase metadata _ _).symm

/- No change erases what is not known. -/
theorem erase_unknown
    (hPending : contents.Pending item changes metadata)
    (hSound : contents.Sound)
    {name : String}
    (hUnknown :
      contents.attributeNamed? item.tableId name = none) :
    contents.Pending item changes (metadata.erase name) := by
  refine ⟨hPending.isThere, hPending.fits, ?_⟩
  have hStill :
      (contents.applyChanges item.id changes).attributeNamed?
        item.tableId name = none := by
    rwa [attributeNamed?, attributes_applyChanges]
  have hErase :=
    (hPending.sound hSound).erase_metadata_of_unknown
      (by simpa using hPending.isThere) hStill
  rw [← hErase, hPending.shown]
  exact (NameMap.map_erase metadata _ _).symm

end Pending

end Contents

------------------------------------------------------------
-- Defined items
------------------------------------------------------------

namespace Contents

/-
  What a successful request to define an item makes of the
  contents: the item under the key has the attributes that it
  had before with the entries applied, its last change is
  now, and all other items are as they were.  An item that is
  new has an identity that was not given out before.
-/
structure Defined
    (before after : Contents)
    (request : Define)
    (now : Cell)
    (id : Int) : Prop where
  known : ∀ old,
    before.itemIn? request.table request.key = some old →
      old.id = id ∧
        after.itemIn? request.table request.key =
          some { old with modified := now }
  fresh :
    before.itemIn? request.table request.key = none →
      before.items.last < id ∧
        ∃ item,
          after.itemIn? request.table request.key =
              some item ∧
            item.id = id ∧ item.modified = now
  metadata : after.metadata id =
    ((before.metadataIn request.table
      request.key).setAll request.entries).normalized
  others : ∀ other ∈ before.items.rows, other.id ≠ id →
    before.Keeps after other

/- There is an item under the key of the request. -/
theorem Defined.exists_item
    {before after : Contents}
    {request : Define}
    {now : Cell}
    {id : Int}
    (hDefined : before.Defined after request now id) :
    ∃ item, item.id = id ∧
      after.itemIn? request.table request.key =
        some item := by
  cases hBefore :
      before.itemIn? request.table request.key with
  | none =>
      rcases hDefined.fresh hBefore with
        ⟨-, item, hItem, hId, -⟩
      exact ⟨item, hId, hItem⟩
  | some old =>
      rcases hDefined.known old hBefore with ⟨hId, hItem⟩
      exact ⟨{ old with modified := now }, hId, hItem⟩

variable {before middle : Contents} {item : ItemRow}
variable {changes : List SlotChange}

/- The contents stay sound when changes are made. -/
theorem Pending.sound_touched
    (hMiddle : middle.Sound)
    {metadata : Metadata}
    (hPending : middle.Pending item changes metadata)
    (now : Cell) :
    ((middle.touch item.id now).2.applyChanges item.id
      changes).Sound := by
  have hMoved : touched item.id now item ∈
      (middle.touch item.id now).2.items.rows :=
    List.mem_map_of_mem hPending.isThere
  have hFits : ∀ change ∈ changes,
      (middle.touch item.id now).2.ChangeFits
        (touched item.id now item).tableId change := by
    rw [tableId_touched]
    exact hPending.fits
  have hSound :=
    (hMiddle.touch item.id now).applyChanges hMoved hFits
  rwa [id_touched] at hSound

/- The item that was changed is under its key still. -/
theorem Pending.itemIn?_touched
    (hMiddle : middle.Sound)
    {metadata : Metadata}
    (hPending : middle.Pending item changes metadata)
    (now : Cell)
    {table : String}
    {key : Scalar}
    (hItem : middle.itemIn? table key = some item) :
    ((middle.touch item.id now).2.applyChanges item.id
      changes).itemIn? table key =
        some { item with modified := now } := by
  have hMoved : touched item.id now item ∈
      (middle.touch item.id now).2.items.rows :=
    List.mem_map_of_mem hPending.isThere
  have hRest := (hMiddle.itemIn?_eq_some_iff.1 hItem).2
  rw [(hPending.sound_touched hMiddle
    now).itemIn?_eq_some_iff, applyChanges_eq]
  exact ⟨touched_of_eq rfl ▸ hMoved, hRest⟩

/- The time of a change is no attribute. -/
theorem metadata_touched
    (contents : Contents)
    (id : Int)
    (now : Cell)
    (changes : List SlotChange) :
    ((contents.touch id now).2.applyChanges id
        changes).metadata id =
      (contents.applyChanges id changes).metadata id := by
  rw [applyChanges_eq, applyChanges_eq]
  rfl

/- Pending changes are made, and the time is set. -/
theorem Pending.defined
    (hBefore : before.Sound)
    (hMiddle : middle.Sound)
    (hGrows : before.Grows middle)
    {request : Define}
    (now : Cell)
    (hItem : middle.itemIn? request.table request.key =
      some item)
    (hPending : middle.Pending item changes
      ((before.metadataIn request.table
        request.key).setAll request.entries)) :
    before.Defined
      ((middle.touch item.id now).2.applyChanges item.id
        changes) request now item.id := by
  have hNow := hPending.itemIn?_touched hMiddle now hItem
  constructor
  · intro old hOld
    have hStill := hBefore.itemIn?_grows hMiddle hGrows hOld
    rw [hItem] at hStill
    cases hStill
    exact ⟨rfl, hNow⟩
  · intro hNone
    rcases hBefore.itemIn?_before hMiddle hGrows hItem with
      hOld | ⟨-, hNew⟩
    · rw [hNone] at hOld
      cases hOld
    · exact ⟨hNew, _, hNow, rfl, rfl⟩
  · rw [metadata_touched, hPending.shown]
  · intro other hOther hId
    have hKept := hBefore.keeps_grows hGrows hOther
    have hKeptStill := keeps_touch hKept.row hId now
    exact (hKept.trans hKeptStill).trans
      (keeps_applyChanges hKeptStill.row hId changes)

end Contents

------------------------------------------------------------
-- Collecting changes
------------------------------------------------------------

namespace Session

variable {setup : Setup}
variable {contents : Contents} {caches : Caches}

/-
  What the collecting of changes ends with: rows may be new,
  and the changes found are pending if there was no error.
-/
def Collects
    {α : Type}
    (contents : Contents)
    (item : ItemRow)
    (changes : α → List SlotChange)
    (metadata : Metadata) : Program.Post α :=
  fun outcome after caches =>
    contents.Grows after ∧ caches.Mirrors after ∧
      ∀ found, outcome = .ok found →
        after.Pending item (changes found) metadata

section Collecting

variable {α : Type} {item : ItemRow} {metadata : Metadata}
variable {changes : α → List SlotChange}

theorem collects_error
    {after : Contents}
    (hGrows : contents.Grows after)
    (hMirrors : caches.Mirrors after)
    (error : Error) :
    Collects contents item changes metadata (.error error)
      after caches :=
  ⟨hGrows, hMirrors, by rintro _ ⟨⟩⟩

/- A scalar is of the kind that its name is fixed to. -/
theorem checkKind_eq_ok
    {name : String}
    {content : Scalar}
    {numeric : Bool}
    {found : Unit}
    (hCheck : checkKind name content numeric = .ok found) :
    content.isNumeric = numeric := by
  unfold checkKind at hCheck
  split at hCheck
  · rename_i hKind
    exact hKind.symm
  · cases hCheck

/- A key of the kind of its table may have an item. -/
theorem mayCreate_of_checkKind
    (hSound : contents.Sound)
    {name : String}
    {table : Table}
    (hTable : contents.tableNamed? name = some table)
    {content : Scalar}
    {key : Value}
    (hKey : contents.valueOf? content = some key)
    {found : Unit}
    (hKind : checkKind table.name content table.numeric =
      .ok found) :
    Items.MayCreate contents table.id key.id := by
  rcases hSound.valueOf?_eq_some_iff.1 hKey with
    ⟨hKeyRow, hContent⟩
  refine ⟨table, (hSound.tableNamed?_eq_some_iff.1 hTable).1,
    key, hKeyRow, rfl, rfl, ?_⟩
  rw [hContent, Scalar.isNumeric_normalized]
  exact checkKind_eq_ok hKind

end Collecting

/- To erase an attribute is one change, or none. -/
theorem ensures_changeOf_none
    (hFree : setup.saved = none)
    (hSound : contents.Sound)
    (hMirrors : caches.Mirrors contents)
    (policies : Policies)
    {item : ItemRow}
    {changes : List SlotChange}
    {metadata : Metadata}
    (hPending : contents.Pending item changes metadata)
    (hTable : (contents.table? item.tableId).isSome)
    (name : String) :
    (changeOf policies item.tableId name none).Ensures setup
      contents caches
      (Collects contents item
        (fun found => changes ++ found.toList)
        (metadata.erase name)) := by
  have hFinds := (Attributes.ensures_resolve hFree hSound
    hMirrors policies.rows hTable name .lookup false).mono
      fun _ _ _ _ _ hFinds => hFinds.reads
  apply hFinds.bind
  · intro found after caches hSound _ hReads
    rcases hReads with
      ⟨rfl, hMirrors, hRight | ⟨-, error, hWrong⟩⟩
    case inr => cases hWrong
    refine Program.ensures_pure hSound
      ⟨.refl _, hMirrors, ?_⟩
    intro changed hChanged
    cases hChanged
    cases hName : Check.dictionary "Column" name with
    | error _ => simp [hName, Except.map] at hRight
    | ok _ =>
        simp only [hName, Except.map, Option.map_id_fun, id,
          Except.ok.injEq] at hRight
        cases found with
        | none =>
            simpa using hPending.erase_unknown hSound
              hRight.symm
        | some row =>
            rcases hSound.attributeNamed?_eq_some_iff.1
              hRight.symm with ⟨hRow, hOf, rfl⟩
            exact hPending.erase hSound hRow hOf
  · intro error after caches _ _ hReads
    rcases hReads with ⟨rfl, hMirrors, -⟩
    exact collects_error (.refl _) hMirrors error

/- To set an attribute is one change. -/
theorem ensures_changeOf_some
    (hFree : setup.saved = none)
    (hSound : contents.Sound)
    (hMirrors : caches.Mirrors contents)
    (policies : Policies)
    {item : ItemRow}
    {changes : List SlotChange}
    {metadata : Metadata}
    (hPending : contents.Pending item changes metadata)
    (hTable : (contents.table? item.tableId).isSome)
    (name : String)
    (content : Scalar) :
    (changeOf policies item.tableId name
      (some content)).Ensures setup contents caches
      (Collects contents item
        (fun found => changes ++ found.toList)
        (metadata.insert name content)) := by
  refine Program.ensures_check hSound (fun _ _ => ?_)
    fun error _ => collects_error (.refl _) hMirrors error
  refine (Attributes.ensures_resolve hFree hSound hMirrors
    policies.rows hTable name .create
    content.isNumeric).created _ ?_ ?_
  case refine_2 =>
    intro error after caches hGrows hMirrors
    exact collects_error hGrows hMirrors error
  intro row middle caches hMiddle hGrows hMirrors _ hFound
  have hPending := hPending.grows hSound hGrows
  rcases hMiddle.attributeNamed?_eq_some_iff.1 hFound with
    ⟨hRow, hOf, rfl⟩
  refine Program.ensures_check hMiddle ?_
    fun error _ => collects_error hGrows hMirrors error
  intro _ hKind
  refine (Values.ensures_resolve hFree hMiddle hMirrors
    policies.values content .create).created _ ?_ ?_
  case refine_2 =>
    intro error after caches hMore hMirrors
    exact collects_error (hGrows.trans hMore) hMirrors error
  intro value after caches hAfter hMore hMirrors _ hFound
  rcases hAfter.valueOf?_eq_some_iff.1 hFound with
    ⟨hValue, hContent⟩
  refine Program.ensures_pure hAfter
    ⟨hGrows.trans hMore, hMirrors, ?_⟩
  intro changed hChanged
  cases hChanged
  exact (hPending.grows hMiddle hMore).insert hAfter
    (hMore.attributes.mem hRow) hOf hValue hContent
    (checkKind_eq_ok hKind)

/- One entry becomes one change, or none. -/
theorem ensures_changeOf
    (hFree : setup.saved = none)
    (hSound : contents.Sound)
    (hMirrors : caches.Mirrors contents)
    (policies : Policies)
    {item : ItemRow}
    {changes : List SlotChange}
    {metadata : Metadata}
    (hPending : contents.Pending item changes metadata)
    (name : String)
    (content : Option Scalar) :
    (changeOf policies item.tableId name content).Ensures
      setup contents caches
      (Collects contents item
        (fun found => changes ++ found.toList)
        (metadata.set name content)) := by
  rcases hSound.itemsFit item hPending.isThere with
    ⟨table, hTable, -, -, hTableId, -⟩
  have hFind :=
    hSound.table?_eq_some_iff.2 ⟨hTable, hTableId⟩
  have hHasTable :
      (contents.table? item.tableId).isSome := by
    simp [hFind]
  cases content with
  | none =>
      exact ensures_changeOf_none hFree hSound hMirrors
        policies hPending hHasTable name
  | some content =>
      exact ensures_changeOf_some hFree hSound hMirrors
        policies hPending hHasTable name content

/- All entries become changes, in order. -/
theorem ensures_changesOf
    (hFree : setup.saved = none)
    (hSound : contents.Sound)
    (hMirrors : caches.Mirrors contents)
    (policies : Policies)
    {item : ItemRow}
    {changes : List SlotChange}
    {metadata : Metadata}
    (hPending : contents.Pending item changes metadata)
    (entries : List (String × Option Scalar)) :
    (changesOf policies item.tableId entries).Ensures setup
      contents caches
      (Collects contents item (changes ++ ·)
        (metadata.setAll entries)) := by
  induction entries generalizing contents caches changes
      metadata with
  | nil =>
      refine Program.ensures_pure hSound
        ⟨.refl _, hMirrors, ?_⟩
      intro _ hSame
      cases hSame
      simpa [NameMap.setAll] using hPending
  | cons entry rest ih =>
      rcases entry with ⟨name, content⟩
      refine (ensures_changeOf hFree hSound hMirrors policies
        hPending name content).bind ?_ ?_
      case refine_2 =>
        intro error after caches _ _ hEnd
        rcases hEnd with ⟨hGrows, hMirrors, -⟩
        exact collects_error hGrows hMirrors error
      intro first middle caches hMiddle _ hEnd
      rcases hEnd with ⟨hGrows, hMirrors, hFirst⟩
      refine (ih hMiddle hMirrors (hFirst first rfl)).bind ?_ ?_
      case refine_2 =>
        intro error after caches _ _ hEnd
        rcases hEnd with ⟨hMore, hMirrors, -⟩
        exact collects_error (hGrows.trans hMore) hMirrors
          error
      intro more after caches hAfter _ hEnd
      rcases hEnd with ⟨hMore, hMirrors, hRest⟩
      refine Program.ensures_pure hAfter
        ⟨hGrows.trans hMore, hMirrors, ?_⟩
      intro _ hSame
      cases hSame
      simpa [NameMap.setAll] using hRest more rfl

------------------------------------------------------------
-- Defining
------------------------------------------------------------

/- The table and the key of a request can be looked up. -/
def Accepts (request : Define) : Prop :=
  Check.dictionary "Table" request.table = .ok () ∧
    Check.storable request.key = .ok ()

/-
  What a request to define an item ends with.  If it fails,
  rows may be new, but unless the answer of a call was lost
  nothing else has changed.
-/
def Defines
    (setup : Setup)
    (contents : Contents)
    (request : Define) : Program.Post Int :=
  fun outcome after caches =>
    caches.Mirrors after ∧
      match outcome with
      | .ok id =>
          Accepts request ∧
            contents.Defined after request setup.clock.cell
              id
      | .error _ =>
          setup.trouble ≠ .any → contents.Grows after

theorem defines_error
    {request : Define}
    {after : Contents}
    (hGrows : contents.Grows after)
    (hMirrors : caches.Mirrors after)
    (error : Error) :
    Defines setup contents request (.error error) after
      caches :=
  ⟨hMirrors, fun _ => hGrows⟩

/- The last part: the item is there, and its slots change. -/
theorem ensures_defineSlots
    (hFree : setup.saved = none)
    {before : Contents}
    (hBefore : before.Sound)
    (hSound : contents.Sound)
    (hGrows : before.Grows contents)
    (hMirrors : caches.Mirrors contents)
    (policies : Policies)
    {request : Define}
    (hAccepts : Accepts request)
    {item : ItemRow}
    (hItem : contents.itemIn? request.table request.key =
      some item) :
    (do
      let changes ← changesOf policies item.tableId
        request.entries
      Items.setSlots item.id changes
      pure item.id : Program Int).Ensures setup contents
        caches (Defines setup before request) := by
  have hMem := (hSound.itemIn?_eq_some_iff.1 hItem).1
  have hPending := Contents.Pending.nil hSound hMem
  rw [hBefore.metadataIn_grows hSound hGrows hItem]
    at hPending
  refine (ensures_changesOf hFree hSound hMirrors policies
    hPending request.entries).bind ?_ ?_
  case refine_2 =>
    intro error after caches _ _ hEnd
    rcases hEnd with ⟨hMore, hMirrors, -⟩
    exact defines_error (hGrows.trans hMore) hMirrors error
  intro changes middle caches hMiddle _ hEnd
  rcases hEnd with ⟨hMore, hMirrors, hChanges⟩
  have hPending := hChanges changes rfl
  have hItem := hSound.itemIn?_grows hMiddle hMore hItem
  have hGrows := hGrows.trans hMore
  have hDone := hPending.defined hBefore hMiddle hGrows
    setup.clock.cell hItem
  have hKept : caches.Mirrors
      ((middle.touch item.id
        setup.clock.cell).2.applyChanges item.id
          changes) := by
    rw [Contents.applyChanges_eq]
    exact { hMirrors with }
  apply (Items.ensures_setSlots hFree hMiddle
    hPending.isThere hPending.fits).bind
  · intro _ after caches hAfter _ hEnd
    rcases hEnd with ⟨rfl, rfl⟩
    exact Program.ensures_pure hAfter
      ⟨hKept, hAccepts, hDone⟩
  · intro error after caches _ _ hEnd
    rcases hEnd with ⟨rfl, -, rfl | ⟨hAny, rfl⟩⟩
    · exact defines_error hGrows hMirrors error
    · exact ⟨hKept, fun hNot => absurd hAny hNot⟩

/- What defining an item does. -/
theorem ensures_define
    (hFree : setup.saved = none)
    (hSound : contents.Sound)
    (hMirrors : caches.Mirrors contents)
    (policies : Policies)
    (request : Define) :
    (define policies request).Ensures setup contents caches
      (Defines setup contents request) := by
  refine Program.ensures_check hSound (fun _ hStorable => ?_)
    fun error _ => defines_error (.refl _) hMirrors error
  refine (Tables.ensures_resolve hFree hSound hMirrors
    policies.rows request.table .create
    request.key.isNumeric).created _ ?_ ?_
  case refine_2 =>
    intro error after caches hGrows hMirrors
    exact defines_error hGrows hMirrors error
  intro table first caches hFirst hGrows hMirrors hName hFound
  refine Program.ensures_check hFirst ?_
    fun error _ => defines_error hGrows hMirrors error
  intro _ hKind
  refine (Values.ensures_resolve hFree hFirst hMirrors
    policies.values request.key .create).created _ ?_ ?_
  case refine_2 =>
    intro error after caches hMore hMirrors
    exact defines_error (hGrows.trans hMore) hMirrors error
  intro key second caches hSecond hMore hMirrors _ hKey
  have hTable := hMore.tableNamed?_eq_some hFound
  have hGrows := hGrows.trans hMore
  have hMay := mayCreate_of_checkKind hSecond hTable hKey hKind
  refine (Items.ensures_resolve hFree hSecond hMirrors
    policies.rows fun _ => hMay).created _ ?_ ?_
  case refine_2 =>
    intro error after caches hLast hMirrors
    exact defines_error (hGrows.trans hLast) hMirrors error
  intro item third caches hThird hLast hMirrors _
    (hItem : third.itemOf? table.id key.id = some item)
  have hUnder : third.itemIn? request.table request.key =
      some item := by
    simp only [Contents.itemIn?, Contents.itemUnder?,
      hLast.tableNamed?_eq_some hTable,
      hLast.valueOf?_eq_some hKey, Option.bind_eq_bind,
      Option.bind_some, hItem]
  have hTableId : item.tableId = table.id :=
    (hThird.itemOf?_eq_some_iff.1 hItem).2.1
  change (do
    let changes ← changesOf policies table.id request.entries
    Items.setSlots item.id changes
    pure item.id : Program Int).Ensures _ _ _ _
  rw [← hTableId]
  exact ensures_defineSlots hFree hSound hThird
    (hGrows.trans hLast) hMirrors policies
    ⟨hName, hStorable⟩ hUnder

/- To create a table makes rows at most. -/
theorem ensures_createTable
    (hFree : setup.saved = none)
    (hSound : contents.Sound)
    (hMirrors : caches.Mirrors contents)
    (policies : Policies)
    (name : String)
    (numeric : Bool) :
    (createTable policies name numeric).Ensures setup
      contents caches fun _ after caches =>
        contents.Grows after ∧ caches.Mirrors after := by
  apply (Tables.ensures_resolve hFree hSound hMirrors
    policies.rows name .create numeric).created _
  · intro table after caches hAfter hGrows hMirrors _ _
    exact Program.ensures_pure hAfter ⟨hGrows, hMirrors⟩
  · intro error after caches hGrows hMirrors
    exact ⟨hGrows, hMirrors⟩

end Session

end SparseTables
