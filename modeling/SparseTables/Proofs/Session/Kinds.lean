import SparseTables.Proofs.Session.Agreeing
import SparseTables.Proofs.Session.Effects

/-
  This file shows which requests to define an item are refused
  for the kinds of their scalars, and what a request adds to
  the store.

  The kind of a name is fixed by what is written under it
  first.  Entries are judged in order, and each one that sets
  an attribute fixes its kind for those that follow.  One that
  erases an attribute fixes nothing.

  Main declarations:
    * `Kinds.fix`
    * `Kinds.judge`
    * `Define.verdict`
    * `Define.Proper`
    * `Define.MayAdd`
    * `Session.comesTo_changesOf`
    * `Session.comesTo_define`
-/

namespace SparseTables

open Program

------------------------------------------------------------
-- Kinds
------------------------------------------------------------

/- The kinds that names are fixed to. -/
abbrev Kinds :=
  String → Option Bool

namespace Kinds

/- A name is fixed to a kind, unless it was fixed before. -/
def fix
    (kinds : Kinds)
    (name : String)
    (numeric : Bool) : Kinds :=
  fun other =>
    if other = name then
      some ((kinds name).getD numeric)
    else
      kinds other

/-
  Entries are refused for the first scalar that is not of the
  kind of its name.
-/
def judge (kinds : Kinds) :
    List (String × Option Scalar) → Except Error Unit
  | [] => .ok ()
  | (_, none) :: rest => kinds.judge rest
  | (name, some content) :: rest => do
      Session.checkKind name content
        ((kinds name).getD content.isNumeric)
      (kinds.fix name content.isNumeric).judge rest

/-
  Nothing is refused if the scalars under each name are of one
  kind, and of the one that the name is fixed to.
-/
theorem judge_eq_ok
    {kinds : Kinds}
    {entries : List (String × Option Scalar)}
    (hFixed : ∀ name content,
      (name, some content) ∈ entries →
        (kinds name).getD content.isNumeric =
          content.isNumeric)
    (hUniform : ∀ name content other,
      (name, some content) ∈ entries →
        (name, some other) ∈ entries →
          content.isNumeric = other.isNumeric) :
    kinds.judge entries = .ok () := by
  induction entries generalizing kinds with
  | nil => rfl
  | cons entry rest ih =>
      have hRest : ∀ name content other,
          (name, some content) ∈ rest →
            (name, some other) ∈ rest →
              content.isNumeric = other.isNumeric :=
        fun name content other hContent hOther =>
          hUniform name content other (.tail _ hContent)
            (.tail _ hOther)
      rcases entry with ⟨name, _ | content⟩
      · exact ih (fun name content hContent =>
          hFixed name content (.tail _ hContent)) hRest
      have hFirst := hFixed name content (.head _)
      have hPasses : Session.checkKind name content
          ((kinds name).getD content.isNumeric) = .ok () :=
        if_pos hFirst
      rw [judge, hPasses]
      refine ih (fun other found hFound => ?_) hRest
      by_cases hSame : other = name
      · subst hSame
        simp only [fix, ↓reduceIte, Option.getD_some, hFirst]
        exact hUniform other content found (.head _)
          (.tail _ hFound)
      · simp only [fix, hSame, ↓reduceIte]
        exact hFixed other found (.tail _ hFound)

end Kinds

namespace Contents

variable {contents after : Contents} {tableId : Int}

/- The kinds of the attributes of a table. -/
def kindsOf (contents : Contents) (tableId : Int) : Kinds :=
  fun name =>
    (contents.attributeNamed? tableId name).map
      Attribute.numeric

/- They are those of the rows under the names. -/
theorem Keyed.kindsOf_eq_some_iff
    (hKeyed : contents.Keyed)
    {name : String}
    {numeric : Bool} :
    contents.kindsOf tableId name = some numeric ↔
      ∃ id, ⟨id, some numeric⟩ ∈
        contents.entriesOf (.column tableId name) := by
  simp only [kindsOf, Option.map_eq_some_iff,
    hKeyed.attributeNamed?_eq_some_iff,
    mem_entriesOf_column_iff, Entry.mk.injEq,
    Option.some.injEq]
  constructor
  · rintro ⟨row, ⟨hRow, hKey⟩, hKind⟩
    exact ⟨row.id, row, hRow, hKey, rfl, hKind⟩
  · rintro ⟨id, row, hRow, hKey, -, hKind⟩
    exact ⟨row, ⟨hRow, hKey⟩, hKind⟩

/- A name is of its kind still unless a row is new under it. -/
theorem Adds.kindsOf_apply
    (hKeyed : contents.Keyed)
    (hAfter : after.Keyed)
    {key : Key}
    {kind : Option Bool}
    (hAdds : contents.Adds (some key) kind after)
    {name : String}
    (hOther : key ≠ .column tableId name) :
    after.kindsOf tableId name =
      contents.kindsOf tableId name := by
  refine Option.ext fun numeric => ?_
  rw [hAfter.kindsOf_eq_some_iff, hKeyed.kindsOf_eq_some_iff]
  constructor
  · rintro ⟨id, hEntry⟩
    rcases hAdds.new _ _ hEntry with hOld | ⟨hKey, -⟩
    · exact ⟨id, hOld⟩
    · exact absurd (Option.some.inj hKey) hOther
  · rintro ⟨id, hEntry⟩
    exact ⟨id, hAdds.widens.mem_entriesOf hEntry⟩

theorem Adds.kindsOf_eq
    (hKeyed : contents.Keyed)
    (hAfter : after.Keyed)
    {key : Key}
    {kind : Option Bool}
    (hAdds : contents.Adds (some key) kind after)
    (hOther : key.dictionary ≠ .columns) :
    after.kindsOf tableId = contents.kindsOf tableId := by
  funext name
  refine hAdds.kindsOf_apply hKeyed hAfter ?_
  rintro rfl
  exact hOther rfl

/- An attribute that is created fixes the kind of its name. -/
theorem kindsOf_created
    (hKeyed : contents.Keyed)
    {name : String}
    {numeric : Bool}
    {found : Option Attribute}
    (hFound : Attributes.Found contents tableId name .create
      numeric after found) :
    after.kindsOf tableId =
      (contents.kindsOf tableId).fix name numeric := by
  funext other
  by_cases hSame : other = name
  swap
  · simp only [Kinds.fix, hSame, ↓reduceIte]
    refine hFound.adds.kindsOf_apply hKeyed hFound.keyed ?_
    rintro ⟨⟩
    exact hSame rfl
  subst hSame
  simp only [Kinds.fix, ↓reduceIte]
  cases hThere : contents.attributeNamed? tableId other with
  | some row =>
      rw [(hFound.of_there hThere).2, kindsOf, hThere]
      rfl
  | none =>
      rcases hFound.exists_row with ⟨row, hRow, -⟩
      have hEntry := mem_entriesOf_column_iff.2 ⟨row,
        (hFound.keyed.attributeNamed?_eq_some_iff.1 hRow).1,
        (hFound.keyed.attributeNamed?_eq_some_iff.1 hRow).2,
        rfl⟩
      rcases hFound.adds.new _ _ hEntry with
        hOld | ⟨-, hKind⟩
      · have hKnown := hKeyed.knows_column_iff.1 ⟨_, hOld⟩
        simp [hThere] at hKnown
      · simp only [kindsOf, hRow, hThere, Option.map_some,
          Option.map_none, Option.getD_none]
        exact hKind

/- Changes of an item add nothing. -/
theorem addsOnly_changed
    (may : Key → Option Bool → Prop)
    (contents : Contents)
    (id : Int)
    (now : Cell)
    (changes : List SlotChange) :
    contents.AddsOnly may
      ((contents.touch id now).2.applyChanges id
        changes) where
  widens := widens_changed contents id now changes
  new key found hFound := by
    rw [applyChanges_eq, touch_eq] at hFound
    cases key with
    | table | column | value => exact Or.inl hFound
    | item ownerId valueId =>
        rw [mem_entriesOf_item_iff] at hFound
        rcases hFound with ⟨row, hRow, hKey, rfl⟩
        rcases List.mem_map.1 hRow with ⟨old, hOld, rfl⟩
        refine Or.inl (mem_entriesOf_item_iff.2
          ⟨old, hOld, ?_, ?_⟩)
        · simpa using hKey
        · simp

end Contents

------------------------------------------------------------
-- Items
------------------------------------------------------------

namespace Items

variable {clock : Clock} {contents : Contents}

/- Changes of slots are made one after another. -/
theorem ends_applyChanges
    (hold : Hold)
    (contents : Contents)
    (caches : Caches)
    (id : Int)
    (changes : List SlotChange) :
    (applyChanges id changes).Ends clock ⟨contents, some hold⟩
      caches (.ok ())
      ⟨contents.applyChanges id changes, some hold⟩ caches := by
  induction changes generalizing contents with
  | nil => exact ends_done (.ok ())
  | cons change rest ih =>
      rw [Contents.applyChanges, List.foldl_cons,
        Contents.applyChange]
      refine (ends_runHeld rfl).bind ?_
      cases change.valueId with
      | none => exact ih _
      | some valueId => exact (ends_runHeld rfl).bind (ih _)

/- The slots of an item that is there can be changed. -/
theorem ends_setSlots
    (clock : Clock)
    {item : ItemRow}
    (hItem : item ∈ contents.items.rows)
    (changes : List SlotChange)
    (caches : Caches) :
    (setSlots item.id changes).Ends clock
      (.ofContents contents) caches (.ok ())
      (.ofContents
        ((contents.touch item.id clock.cell).2.applyChanges
          item.id changes)) caches := by
  refine ends_transaction ((ends_runHeld rfl).bind ?_)
  change Ends _ ⟨(contents.touch item.id clock.cell).2, _⟩ _
    (if (contents.touch item.id clock.cell).1 = 0 then _
      else applyChanges item.id changes) _ _ _
  rw [if_neg (Contents.touch_count hItem _)]
  exact ends_applyChanges _ _ _ _ _

theorem comesTo_setSlots
    (clock : Clock)
    {item : ItemRow}
    (hItem : item ∈ contents.items.rows)
    (changes : List SlotChange) :
    (setSlots item.id changes).ComesTo clock contents (.ok ())
      ((contents.touch item.id clock.cell).2.applyChanges
        item.id changes) := by
  intro caches hMirrors
  have hWidens := Contents.widens_changed contents item.id
    clock.cell changes
  exact ⟨caches, ends_setSlots clock hItem changes caches,
    hMirrors.retains hWidens.retains⟩

end Items

------------------------------------------------------------
-- Requests
------------------------------------------------------------

/-
  The names and scalars of a request pass all checks that do
  not depend on the store.
-/
structure Define.Proper (request : Define) : Prop where
  table : Check.dictionary "Table" request.table = .ok ()
  key : Check.storable request.key = .ok ()
  names : ∀ entry ∈ request.entries,
    Check.dictionary "Column" entry.1 = .ok ()
  contents : ∀ entry ∈ request.entries,
    ∀ content ∈ entry.2, Check.storable content = .ok ()

/- The kinds of a table's attributes, if there is a table. -/
def Contents.kindsIn
    (contents : Contents)
    (table : String) : Kinds :=
  fun name => do
    let row ← contents.tableNamed? table
    contents.kindsOf row.id name

/-
  A request is refused for its key if that is not of the kind
  of the table, or else for the first of its entries that does
  not fit.
-/
def Define.verdict
    (request : Define)
    (contents : Contents) : Except Error Unit := do
  Session.checkKind request.table request.key
    (((contents.tableNamed? request.table).map
      Table.numeric).getD request.key.isNumeric)
  (contents.kindsIn request.table).judge request.entries

/- Is a table, found by its identity, of some name? -/
def Contents.IsNamed
    (contents : Contents)
    (tableId : Int)
    (name : String) : Prop :=
  ∃ row ∈ contents.tables.rows,
    row.id = tableId ∧ row.name = name

/-
  What a request may add: its table, of the kind of its key,
  the attributes that it sets, of the kinds of their scalars,
  its key and its scalars, and its item.
-/
def Define.MayAdd
    (request : Define)
    (contents : Contents) : Key → Option Bool → Prop
  | .table name, kind =>
      name = request.table ∧
        kind = some request.key.isNumeric
  | .column tableId name, kind =>
      contents.IsNamed tableId request.table ∧
        ∃ content, (name, some content) ∈ request.entries ∧
          kind = some content.isNumeric
  | .value content, _ =>
      ∃ given, (given = request.key ∨
          ∃ name, (name, some given) ∈ request.entries) ∧
        content = given.normalized
  | .item tableId valueId, _ =>
      contents.IsNamed tableId request.table ∧
        ∃ value ∈ contents.values.rows, value.id = valueId ∧
          value.content = request.key.normalized

variable {contents after : Contents} {request : Define}

/- What may be added may be added when rows are new. -/
theorem Define.MayAdd.widens
    (hWidens : contents.Widens after)
    {key : Key}
    {kind : Option Bool}
    (hMay : request.MayAdd contents key kind) :
    request.MayAdd after key kind := by
  have hNamed {tableId : Int}
      (hNamed : contents.IsNamed tableId request.table) :
      after.IsNamed tableId request.table := by
    rcases hNamed with ⟨row, hRow, hRest⟩
    exact ⟨row, hWidens.retains.tables row hRow, hRest⟩
  cases key with
  | table | value => exact hMay
  | column => exact hMay.imp_left hNamed
  | item =>
      rcases hMay with ⟨hTable, value, hValue, hRest⟩
      exact ⟨hNamed hTable, value,
        hWidens.retains.values value hValue, hRest⟩

namespace Contents

theorem isSome_table?
    {row : Table}
    (hRow : row ∈ contents.tables.rows) :
    (contents.table? row.id).isSome :=
  List.find?_isSome.2 ⟨row, hRow, by simp⟩

theorem isSome_value?
    {row : Value}
    (hRow : row ∈ contents.values.rows) :
    (contents.value? row.id).isSome :=
  List.find?_isSome.2 ⟨row, hRow, by simp⟩

variable {found : Option Table}

/- A table that is there keeps its kind, a new one gets it. -/
theorem numeric_created
    (hKeyed : contents.Keyed)
    {name : String}
    {numeric : Bool}
    (hFound : Tables.Found contents name .create numeric after
      found)
    {row : Table}
    (hRow : after.tableNamed? name = some row) :
    row.numeric =
      ((contents.tableNamed? name).map Table.numeric).getD
        numeric := by
  cases hThere : contents.tableNamed? name with
  | some old =>
      rw [(hFound.of_there hThere).2, hThere] at hRow
      cases hRow
      rfl
  | none =>
      rcases hFound.keyed.tableNamed?_eq_some_iff.1 hRow with
        ⟨hMem, hName⟩
      rcases hFound.adds.new _ _ (mem_entriesOf_table_iff.2
        ⟨row, hMem, hName, rfl⟩) with hOld | ⟨-, hKind⟩
      · have hKnown := hKeyed.knows_table_iff.1 ⟨_, hOld⟩
        simp [hThere] at hKnown
      · exact Option.some.inj hKind

/- A table has the attributes it had; a new one has none. -/
theorem Sound.kindsOf_created
    (hSound : contents.Sound)
    {name : String}
    {numeric : Bool}
    (hFound : Tables.Found contents name .create numeric after
      found)
    {row : Table}
    (hRow : after.tableNamed? name = some row) :
    after.kindsOf row.id = contents.kindsIn name := by
  rw [hFound.adds.kindsOf_eq hSound.keyed hFound.keyed
    (by simp [Key.dictionary])]
  cases hThere : contents.tableNamed? name with
  | some old =>
      rw [(hFound.of_there hThere).2, hThere] at hRow
      cases hRow
      funext other
      simp [kindsIn, hThere]
  | none =>
      funext other
      simp only [kindsIn, hThere, Option.bind_eq_bind,
        Option.bind_none, kindsOf, Option.map_eq_none_iff]
      by_contra hOther
      rcases Option.ne_none_iff_exists'.1 hOther with
        ⟨attr_, hAttr⟩
      rcases hSound.attributeNamed?_eq_some_iff.1 hAttr with
        ⟨hMem, hOwner, -⟩
      -- its table is an old one, but has the new identity
      rcases hSound.attributeTables attr_ hMem with
        ⟨table, hTable, hId⟩
      have hStill := hFound.adds.widens.retains.tables table
        hTable
      rcases hFound.keyed.tableNamed?_eq_some_iff.1 hRow with
        ⟨hNew, hName⟩
      cases hFound.keyed.tables.eq_of_id hStill hNew
        (hId.trans hOwner)
      have hFind :=
        hSound.tableNamed?_eq_some_iff.2 ⟨hTable, hName⟩
      rw [hThere] at hFind
      cases hFind

end Contents

namespace Session

variable {clock : Clock} {tableId : Int}
variable {may : Key → Option Bool → Prop}

/- What one entry comes to that sets an attribute. -/
theorem comesTo_changeOf_some
    (hKeyed : contents.Keyed)
    (policies : Policies)
    (hTable : (contents.table? tableId).isSome)
    {name : String}
    (hName : Check.dictionary "Column" name = .ok ())
    {content : Scalar}
    (hStorable : Check.storable content = .ok ())
    (hColumn : may (.column tableId name)
      (some content.isNumeric))
    (hValue : may (.value content.normalized) none) :
    ∃ outcome after,
      (changeOf policies tableId name (some content)).ComesTo
        clock contents outcome after ∧
      outcome.map (fun _ => ()) = checkKind name content
        ((contents.kindsOf tableId name).getD
          content.isNumeric) ∧
      after.Keyed ∧ contents.AddsOnly may after ∧
      after.kindsOf tableId =
        (contents.kindsOf tableId).fix name
          content.isNumeric := by
  rcases Attributes.comesTo_resolve hKeyed policies.rows hName
    (fun _ : Intent.create = .create => hTable)
    content.isNumeric with ⟨found, middle, hFirst, hFound⟩
  have hKinds := Contents.kindsOf_created hKeyed hFound
  have hAdds := hFound.adds.only hColumn
  rcases hFound.exists_row with ⟨row, hRow, rfl⟩
  have hKind : row.numeric =
      (contents.kindsOf tableId name).getD
        content.isNumeric := by
    have hFixed := congrFun hKinds name
    simpa [Contents.kindsOf, hRow, Kinds.fix] using hFixed
  cases hCheck : checkKind name content row.numeric with
  | error error =>
      refine ⟨.error error, middle,
        ComesTo.bind (.check hStorable) (hFirst.bind
          (ComesTo.bind (.done (.ok row))
            (ComesTo.bind_error (.check hCheck)))), ?_,
        hFound.keyed, hAdds, hKinds⟩
      rw [← hKind, hCheck]
      rfl
  | ok _ =>
      rcases Values.comesTo_resolve hFound.keyed
        policies.values hStorable .create with
        ⟨_, after, hSecond, hInterned⟩
      rcases hInterned.exists_row with ⟨value, -, rfl⟩
      refine ⟨.ok (some ⟨row.id, some value.id⟩), after,
        ComesTo.bind (.check hStorable) (hFirst.bind
          (ComesTo.bind (.done (.ok row))
            (ComesTo.bind (.check hCheck) (hSecond.bind
              (ComesTo.bind (.done (.ok value.id))
                (.done _)))))), ?_,
        hInterned.keyed,
        hAdds.trans (hInterned.adds.only hValue), ?_⟩
      · rw [← hKind, hCheck]
        rfl
      · rw [← hKinds]
        exact hInterned.adds.kindsOf_eq hFound.keyed
          hInterned.keyed (by simp [Key.dictionary])

/- An entry that erases an attribute adds nothing. -/
theorem comesTo_changeOf_none
    (hKeyed : contents.Keyed)
    (policies : Policies)
    (tableId : Int)
    {name : String}
    (hName : Check.dictionary "Column" name = .ok ()) :
    ∃ found,
      (changeOf policies tableId name none).ComesTo clock
        contents (.ok found) contents := by
  rcases Attributes.comesTo_resolve hKeyed policies.rows hName
    (nofun : Intent.lookup = .create → _) false with
    ⟨found, after, hFirst, hFound⟩
  cases hFound.same (Or.inl rfl)
  exact ⟨_, hFirst.map _⟩

/- Entries are refused as they are judged, in order. -/
theorem comesTo_changesOf
    (hKeyed : contents.Keyed)
    (policies : Policies)
    (hTable : (contents.table? tableId).isSome)
    {entries : List (String × Option Scalar)}
    (hNames : ∀ entry ∈ entries,
      Check.dictionary "Column" entry.1 = .ok ())
    (hStorable : ∀ entry ∈ entries,
      ∀ content ∈ entry.2, Check.storable content = .ok ())
    (hMay : ∀ name content, (name, some content) ∈ entries →
      may (.column tableId name) (some content.isNumeric) ∧
        may (.value content.normalized) none) :
    ∃ outcome after,
      (changesOf policies tableId entries).ComesTo clock
        contents outcome after ∧
      outcome.map (fun _ => ()) =
        (contents.kindsOf tableId).judge entries ∧
      contents.AddsOnly may after := by
  induction entries generalizing contents with
  | nil =>
      exact ⟨.ok [], contents, .done _, rfl, .refl _ _⟩
  | cons entry rest ih =>
      have hNamesRest : ∀ entry ∈ rest,
          Check.dictionary "Column" entry.1 = .ok () :=
        fun entry hEntry => hNames entry (.tail _ hEntry)
      have hStorableRest : ∀ entry ∈ rest,
          ∀ content ∈ entry.2,
            Check.storable content = .ok () :=
        fun entry hEntry => hStorable entry (.tail _ hEntry)
      have hMayRest : ∀ name content,
          (name, some content) ∈ rest →
            may (.column tableId name)
                (some content.isNumeric) ∧
              may (.value content.normalized) none :=
        fun name content hEntry =>
          hMay name content (.tail _ hEntry)
      rcases entry with ⟨name, _ | content⟩
      · rcases comesTo_changeOf_none hKeyed policies tableId
          (hNames _ (.head _)) with ⟨found, hFirst⟩
        rcases ih hKeyed hTable hNamesRest hStorableRest
          hMayRest with ⟨outcome, after, hRest, hJudged, hAdds⟩
        cases outcome with
        | error error =>
            exact ⟨.error error, after,
              hFirst.bind hRest.bind_error, hJudged, hAdds⟩
        | ok more =>
            exact ⟨.ok _, after,
              hFirst.bind (hRest.bind (.done _)), hJudged,
              hAdds⟩
      rcases hMay name content (.head _) with
        ⟨hColumn, hValue⟩
      rcases comesTo_changeOf_some hKeyed policies hTable
        (hNames _ (.head _))
        (hStorable _ (.head _) content rfl) hColumn hValue
        with ⟨outcome, middle, hFirst, hVerdict, hMiddle,
          hAdds, hKinds⟩
      rw [Kinds.judge, ← hVerdict]
      cases outcome with
      | error error =>
          exact ⟨.error error, middle, hFirst.bind_error, rfl,
            hAdds⟩
      | ok found =>
          rcases ih hMiddle
            (hAdds.widens.isSome_table? hTable) hNamesRest
            hStorableRest hMayRest with
            ⟨outcome, after, hRest, hJudged, hMore⟩
          rw [← hKinds]
          cases outcome with
          | error error =>
              exact ⟨.error error, after,
                hFirst.bind hRest.bind_error, hJudged,
                hAdds.trans hMore⟩
          | ok more =>
              exact ⟨.ok _, after,
                hFirst.bind (hRest.bind (.done _)), hJudged,
                hAdds.trans hMore⟩

/- The last part: the item is there, and its slots change. -/
theorem comesTo_defineSlots
    (hKeyed : contents.Keyed)
    (policies : Policies)
    (hProper : request.Proper)
    {table : Table}
    (hTable : table ∈ contents.tables.rows)
    (hName : table.name = request.table)
    {item : ItemRow}
    (hItem : item ∈ contents.items.rows) :
    ∃ outcome after,
      (do
        let changes ← changesOf policies table.id
          request.entries
        Items.setSlots item.id changes
        pure item.id : Program Int).ComesTo clock contents
          outcome after ∧
      outcome.map (fun _ => ()) =
        (contents.kindsOf table.id).judge request.entries ∧
      contents.AddsOnly (request.MayAdd after) after := by
  have hThere := Contents.isSome_table? hTable
  have hMay (name : String) (content : Scalar)
      (hEntry : (name, some content) ∈ request.entries) :
      request.MayAdd contents (.column table.id name)
          (some content.isNumeric) ∧
        request.MayAdd contents (.value content.normalized)
          none :=
    ⟨⟨⟨table, hTable, rfl, hName⟩, content, hEntry, rfl⟩,
      content, Or.inr ⟨name, hEntry⟩, rfl⟩
  rcases comesTo_changesOf hKeyed policies hThere
    hProper.names hProper.contents hMay with
    ⟨outcome, middle, hFirst, hJudged, hAdds⟩
  have hAdds := hAdds.mono fun _ _ hMay =>
    hMay.widens hAdds.widens
  cases outcome with
  | error error =>
      exact ⟨.error error, middle, hFirst.bind_error, hJudged,
        hAdds⟩
  | ok changes =>
      rcases hAdds.widens.items item hItem with
        ⟨later, hLater, hCore⟩
      have hId : later.id = item.id :=
        congrArg Prod.fst hCore
      have hSet := Items.comesTo_setSlots clock hLater changes
      have hMore := Contents.addsOnly_changed
        (request.MayAdd middle) middle later.id clock.cell
        changes
      rw [hId] at hSet hMore
      exact ⟨.ok item.id, _,
        hFirst.bind (hSet.bind (.done _)), hJudged,
        (hAdds.trans hMore).mono fun _ _ hMay =>
          hMay.widens hMore.widens⟩

/-
  A request with proper names and scalars is refused only for
  their kinds, and adds no more than it may.
-/
theorem comesTo_define
    (hSound : contents.Sound)
    (policies : Policies)
    (hProper : request.Proper) :
    ∃ outcome after,
      (define policies request).ComesTo clock contents outcome
        after ∧
      outcome.map (fun _ => ()) = request.verdict contents ∧
      contents.AddsOnly (request.MayAdd after) after := by
  rcases Tables.comesTo_resolve hSound.keyed policies.rows
    hProper.table .create request.key.isNumeric with
    ⟨_, first, hFirst, hFound⟩
  rcases hFound.exists_row with ⟨table, hTable, rfl⟩
  have hAdds : contents.AddsOnly (request.MayAdd first)
      first := hFound.adds.only ⟨rfl, rfl⟩
  have hKinds := hSound.kindsOf_created hFound hTable
  rcases hFound.keyed.tableNamed?_eq_some_iff.1 hTable with
    ⟨hRow, hName⟩
  rw [Define.verdict, ← hKinds,
    ← Contents.numeric_created hSound.keyed hFound hTable,
    ← hName]
  cases hCheck : checkKind table.name request.key
    table.numeric with
  | error error =>
      exact ⟨.error error, first,
        ComesTo.bind (.check hProper.key) (hFirst.bind
          (ComesTo.bind (.done (.ok table))
            (ComesTo.bind_error (.check hCheck)))), rfl,
        hAdds⟩
  | ok _ =>
      rcases Values.comesTo_resolve hFound.keyed
        policies.values hProper.key .create with
        ⟨_, second, hSecond, hInterned⟩
      rcases hInterned.exists_row with ⟨key, hKey, rfl⟩
      rcases hInterned.keyed.valueOf?_eq_some_iff.1 hKey with
        ⟨hKeyRow, hContent⟩
      have hRow := hInterned.adds.widens.retains.tables table
        hRow
      rcases Items.comesTo_resolve hInterned.keyed
        policies.rows (fun _ : Intent.create = .create =>
          ⟨Contents.isSome_table? hRow,
            Contents.isSome_value? hKeyRow⟩) with
        ⟨_, third, hThird, hPlaced⟩
      rcases hPlaced.exists_row with ⟨item, hItem, rfl⟩
      have hItemRow :=
        (hPlaced.keyed.itemOf?_eq_some_iff.1 hItem).1
      have hRow := hPlaced.adds.widens.retains.tables table
        hRow
      have hKeyRow := hPlaced.adds.widens.retains.values key
        hKeyRow
      rcases comesTo_defineSlots hPlaced.keyed policies hProper
        hRow hName hItemRow with
        ⟨outcome, after, hRest, hJudged, hMore⟩
      refine ⟨outcome, after,
        ComesTo.bind (.check hProper.key) (hFirst.bind
          (ComesTo.bind (.done (.ok table))
            (ComesTo.bind (.check hCheck) (hSecond.bind
              (ComesTo.bind (.done (.ok key.id)) (hThird.bind
                (ComesTo.bind (.done (.ok item.id))
                  hRest))))))), ?_, ?_⟩
      · rw [hJudged, hPlaced.adds.kindsOf_eq hInterned.keyed
          hPlaced.keyed (by simp [Key.dictionary]),
          hInterned.adds.kindsOf_eq hFound.keyed
          hInterned.keyed (by simp [Key.dictionary])]
        rfl
      · have hLast := hMore.widens
        have hWidens := (hInterned.adds.widens.trans
          hPlaced.adds.widens).trans hLast
        refine (((hAdds.mono fun _ _ hMay =>
          hMay.widens hWidens).trans
            (hInterned.adds.only ?_)).trans
              (hPlaced.adds.only ?_)).trans hMore
        · exact ⟨request.key, Or.inl rfl, rfl⟩
        · exact ⟨⟨table, hLast.retains.tables table hRow, rfl,
            hName⟩, key, hLast.retains.values key hKeyRow, rfl,
            hContent⟩

end Session

end SparseTables
