import SparseTables.Proofs.Contents.Dropping
import SparseTables.Proofs.Query.Compiling
import SparseTables.Proofs.Session.Kinds
import SparseTables.Proofs.Session.Outcomes

/-
  This file states what callers can rely on when they drop a
  table, at any time in the history of a store.

  Nothing of the table is left and everything else stays, and
  a table that is created under its name later on starts with
  what it is created with.

  Main declarations:
    * `Session.ends_dropTable`
    * `Contents.Anew`
    * `Contents.Sound.anew`
    * `Session.Forgets`
    * `Session.dropTable_forgets`
-/

namespace SparseTables

open Program

------------------------------------------------------------
-- Dropping
------------------------------------------------------------

namespace Contents

/- The contents without the table of a name, if there is one. -/
def withoutNamed
    (contents : Contents)
    (name : String) : Contents :=
  match contents.tableNamed? name with
  | none => contents
  | some table => contents.without table.id

/- No other table has the name. -/
theorem Sound.tableNamed?_withoutNamed
    {contents : Contents}
    (hSound : contents.Sound)
    (name : String) :
    (contents.withoutNamed name).tableNamed? name = none := by
  cases hFind : contents.tableNamed? name with
  | none => rwa [withoutNamed, hFind]
  | some table =>
      rw [withoutNamed, hFind]
      rcases hSound.tableNamed?_eq_some_iff.1 hFind with
        ⟨hTable, hName⟩
      refine List.find?_eq_none.2 fun row hRow => ?_
      rcases ((hSound.loses hTable).tables row).1 hRow with
        ⟨hMem, hOther⟩
      rw [beq_iff_eq]
      rintro rfl
      exact hOther (List.inj_on_of_nodup_map hSound.tableNames
        hMem hTable hName.symm)

end Contents

namespace Session

variable {clock : Clock} {contents : Contents}

/- Nothing refers to the row of a table when it goes. -/
theorem ends_drop
    (hSound : contents.Sound)
    (tableId : Int)
    (caches : Caches) :
    (do
      Attributes.purge tableId
      Items.purge tableId
      Tables.remove tableId : Program Unit).Ends clock
        (.ofContents contents) caches (.ok ())
        (.ofContents (contents.without tableId)) caches := by
  have hAttributes : (Attributes.purge tableId).Ends clock
      (.ofContents contents) caches (.ok ())
      (.ofContents (contents.withoutAttributes tableId))
      caches :=
    (ends_run rfl).bind ((ends_run rfl).bind (ends_done _))
  have hItems (contents : Contents) :
      (Items.purge tableId).Ends clock (.ofContents contents)
        caches (.ok ())
        (.ofContents (contents.withoutItems tableId))
        caches :=
    (ends_run rfl).bind ((ends_run rfl).bind
      ((ends_run rfl).bind (ends_done _)))
  have hPurged := hItems (contents.withoutAttributes tableId)
  rw [hSound.purged tableId] at hPurged
  rcases contents.removeTables_purged tableId with
    ⟨count, hRemove⟩
  have hRun : (Statement.removeTable tableId).run clock
      { contents.without tableId with
        tables := contents.tables } =
        .ok (count, contents.without tableId) := hRemove
  exact hAttributes.bind (hPurged.bind
    ((ends_run hRun).bind (ends_done _)))

/-
  A table is dropped whatever the caches hold, and they are
  empty then.
-/
theorem ends_dropTable
    (hSound : contents.Sound)
    (policies : Policies)
    {name : String}
    (hName : Check.dictionary "Table" name = .ok ())
    (caches : Caches) :
    (dropTable policies name).Ends clock (.ofContents contents)
      caches (.ok ())
      (.ofContents (contents.withoutNamed name)) .empty := by
  refine Ends.bind (ends_cached (ends_done (.ok ()))) ?_
  cases hFind : contents.tableNamed? name with
  | none =>
      rw [Contents.withoutNamed, hFind]
      have hAttempt : (Tables.findOrAdd name .lookup
          false).Ends clock (.ofContents contents) .empty
          (.ok none) (.ofContents contents) .empty := by
        refine (ends_run rfl).bind ?_
        rw [hFind]
        exact ends_done _
      have hLookup : (Tables.resolve policies.rows name .lookup
          false).Ends clock (.ofContents contents) .empty
          (.ok none) (.ofContents contents) .empty := by
        refine (ends_check hName).bind ?_
        exact ends_caches (hAttempt.attempts _ _)
      exact hLookup.bind (ends_done _)
  | some table =>
      rw [Contents.withoutNamed, hFind]
      rcases Tables.comesTo_resolve hSound.keyed
        policies.rows hName .lookup false with
        ⟨found, after, hLookup, hFound⟩
      rw [(hFound.of_there hFind).1,
        (hFound.of_there hFind).2] at hLookup
      rcases hLookup .empty (.empty contents) with
        ⟨kept, hLookup, -⟩
      exact hLookup.bind
        ((ends_drop hSound table.id kept).attempt.bind
          (ends_cached (ends_done (.ok ()))))

end Session

------------------------------------------------------------
-- Starting anew
------------------------------------------------------------

/- The scalars that are set under one name are of one kind. -/
def Define.Uniform (request : Define) : Prop :=
  ∀ name content other,
    (name, some content) ∈ request.entries →
      (name, some other) ∈ request.entries →
        content.isNumeric = other.isNumeric

namespace Contents

/-
  What a request makes of its table if that is new.  The table
  has an identity that was not given out before, the kind of
  the key, the item of the request, and attributes that the
  request sets; all of these are new as well.
-/
structure Anew
    (before after : Contents)
    (request : Define)
    (table : Table)
    (item : ItemRow) : Prop where
  named : after.tableNamed? request.table = some table
  fresh : before.tables.last < table.id
  kind : table.numeric = request.key.isNumeric
  attributes : ∀ attr_ ∈ after.attributes.rows,
    attr_.tableId = table.id →
      before.attributes.last < attr_.id ∧
        ∃ content, (attr_.name, some content) ∈
            request.entries ∧
          attr_.numeric = content.isNumeric
  items : ∀ other ∈ after.items.rows,
    other.tableId = table.id ↔ other = item
  freshItem : before.items.last < item.id
  metadata : after.metadata item.id =
    (NameMap.empty.setAll request.entries).normalized

variable {before after : Contents} {request : Define}

/- A name that is unknown may be given any kinds. -/
theorem verdict_unknown
    (hUnknown : before.tableNamed? request.table = none)
    (hUniform : request.Uniform) :
    request.verdict before = .ok () := by
  have hKey : Session.checkKind request.table request.key
      request.key.isNumeric = .ok () := if_pos rfl
  simp only [Define.verdict, hUnknown, Option.map_none,
    Option.getD_none, hKey]
  refine Kinds.judge_eq_ok (fun name content _ => ?_) hUniform
  simp [kindsIn, hUnknown]

/- A table under a name that was unknown starts anew. -/
theorem Sound.anew
    (hSound : before.Sound)
    (hAfter : after.Sound)
    (hAges : before.Ages after)
    (hUnknown : before.tableNamed? request.table = none)
    (hAdds : before.AddsOnly (request.MayAdd after) after)
    {now : Cell}
    {id : Int}
    (hDefined : before.Defined after request now id) :
    ∃ table item, item.id = id ∧
      before.Anew after request table item := by
  rcases hDefined.exists_item with ⟨item, rfl, hItem⟩
  rcases hAfter.itemIn?_eq_some_iff.1 hItem with
    ⟨hItemRow, ⟨table, hTable, hOwner, hName⟩, -⟩
  have hNoItem :
      before.itemIn? request.table request.key = none := by
    simp [itemIn?, hUnknown]
  have hFreshItem := (hDefined.fresh hNoItem).1
  -- neither the table nor what belongs to it is an old row
  have hNew : table ∉ before.tables.rows := by
    intro hOld
    rw [hSound.tableNamed?_eq_some_iff.2 ⟨hOld, hName⟩]
      at hUnknown
    cases hUnknown
  have hFresh : before.tables.last < table.id := by
    by_contra hGiven
    have hOld := hAges.tables.rows table hTable
      (Int.not_lt.1 hGiven)
    rw [List.map_id'] at hOld
    exact hNew hOld
  have hNoOwner (row : Table)
      (hRow : row ∈ before.tables.rows) :
      row.id ≠ table.id := by
    have hBound := hSound.tables.bounded row hRow
    omega
  have hNoAttribute (attr_ : Attribute)
      (hAttr : attr_ ∈ before.attributes.rows) :
      attr_.tableId ≠ table.id := by
    rcases hSound.attributeTables attr_ hAttr with
      ⟨row, hRow, hId⟩
    exact hId ▸ hNoOwner row hRow
  refine ⟨table, item, rfl, ?_⟩
  constructor
  case named =>
    exact hAfter.tableNamed?_eq_some_iff.2 ⟨hTable, hName⟩
  case fresh => exact hFresh
  case freshItem => exact hFreshItem
  case kind =>
    rcases hAdds.new _ _ (mem_entriesOf_table_iff.2
      ⟨table, hTable, rfl, rfl⟩) with hOld | hMay
    · rcases mem_entriesOf_table_iff.1 hOld with
        ⟨row, hRow, -, hSame⟩
      exact absurd (congrArg Entry.id hSame) (hNoOwner row hRow)
    · exact Option.some.inj hMay.2
  case attributes =>
    intro attr_ hAttr hOf
    constructor
    · by_contra hGiven
      have hOld := hAges.attributes.rows attr_ hAttr
        (Int.not_lt.1 hGiven)
      rw [List.map_id'] at hOld
      exact hNoAttribute attr_ hOld hOf
    rcases hAdds.new _ _ (mem_entriesOf_column_iff.2
      ⟨attr_, hAttr, ⟨rfl, rfl⟩, rfl⟩) with hOld | hMay
    · rcases mem_entriesOf_column_iff.1 hOld with
        ⟨row, hRow, ⟨hSame, -⟩, -⟩
      exact absurd (hSame.trans hOf) (hNoAttribute row hRow)
    · rcases hMay.2 with ⟨content, hEntry, hKind⟩
      exact ⟨content, hEntry, Option.some.inj hKind⟩
  case items =>
    intro other hOther
    refine ⟨fun hOf => ?_, fun hSame => ?_⟩
    swap
    · rw [hSame, hOwner]
    rcases hAdds.new _ _ (mem_entriesOf_item_iff.2
      ⟨other, hOther, ⟨rfl, rfl⟩, rfl⟩) with hOld | hMay
    · rcases mem_entriesOf_item_iff.1 hOld with
        ⟨row, hRow, ⟨hSame, -⟩, -⟩
      rcases hSound.itemsFit row hRow with
        ⟨owner, hMem, -, -, hId, -⟩
      exact absurd (hId.trans (hSame.trans hOf))
        (hNoOwner owner hMem)
    · have hThere := hAfter.itemIn?_eq_some_iff.2
        ⟨hOther, hMay⟩
      rw [hItem] at hThere
      exact (Option.some.inj hThere).symm
  case metadata =>
    have hMetadata := hDefined.metadata
    rwa [metadataIn, hNoItem] at hMetadata

end Contents

------------------------------------------------------------
-- Forgotten tables
------------------------------------------------------------

namespace Session

variable {shared : Shared} {name : String}

/- A program that ends does so where no failure is planned. -/
theorem ends_calm
    (hFree : shared.store.engine.hold = none)
    {α : Type}
    {program : Program α}
    {outcome : Except Error α}
    {after : Contents}
    {kept : Caches}
    (hEnds : program.Ends shared.store.clock
      (.ofContents shared.contents) shared.caches outcome
      (.ofContents after) kept) :
    ∃ last,
      program.advance (calm shared) =
          (.finished outcome, last) ∧
        last.contents = after ∧ last.caches = kept := by
  rcases shared with
    ⟨⟨⟨contents, hold⟩, clock, faults⟩, caches⟩
  have hNone : hold = none := hFree
  subst hNone
  rcases hEnds .none (by simp [Faults.none, Faults.Within])
    with ⟨later, -, hAdvance⟩
  exact ⟨_, hAdvance, rfl, rfl⟩

theorem AtRest.ends
    (hRest : AtRest shared)
    {α : Type}
    {program : Program α}
    {outcome : Except Error α}
    {after : Contents}
    {kept : Caches}
    (hEnds : program.Ends shared.store.clock
      (.ofContents shared.contents) shared.caches outcome
      (.ofContents after) kept) :
    ∃ last,
      program.advance (calm shared) =
          (.finished outcome, last) ∧
        last.contents = after ∧ last.caches = kept :=
  ends_calm hRest.free hEnds

/- Nothing that is asked shows a table of a name. -/
structure Forgets
    (shared : Shared)
    (name : String) : Prop where
  unknown : shared.contents.tableNamed? name = none
  lookup : ∀ policy numeric, ∃ last,
    (Tables.resolve policy name .lookup numeric).advance
        (calm shared) =
      (.finished (.ok none), last)
  get : ∀ policies keys, ∃ last,
    (Session.get policies ⟨name, keys⟩).advance
        (calm shared) =
      (.finished (.error (.notFound ("table " ++ name))),
        last)
  schema : ∀ table, ∃ response last,
    (Session.schema table).advance (calm shared) =
        (.finished (.ok response), last) ∧
      response.tables.get? name = none

/- A schema lists the tables that have attributes. -/
theorem get?_addToSchema
    {pairs : List (String × String)}
    (hOthers : ∀ pair ∈ pairs, pair.1 ≠ name)
    (tables : NameMap (List String)) :
    (pairs.foldl addToSchema tables).get? name =
      tables.get? name := by
  induction pairs generalizing tables with
  | nil => rfl
  | cons pair rest ih =>
      rw [List.foldl_cons, ih fun other hOther =>
        hOthers other (.tail _ hOther), addToSchema,
        NameMap.get?_insert, if_neg]
      exact (hOthers pair (.head _)).symm

/- A table that is not there is not shown. -/
theorem AtRest.forgets
    (hRest : AtRest shared)
    (hName : Check.dictionary "Table" name = .ok ())
    (hUnknown : shared.contents.tableNamed? name = none) :
    Forgets shared name where
  unknown := hUnknown
  lookup policy numeric := by
    rcases Tables.comesTo_resolve hRest.sound.keyed policy
      hName .lookup numeric with
      ⟨found, after, hLookup, hFound⟩
    rcases hLookup shared.caches hRest.mirrors with
      ⟨kept, hEnds, -⟩
    have hSame := hFound.same (Or.inl rfl)
    have hNone : found = none := by
      rw [hFound.eq, hSame]
      exact congrArg (Option.map id) hUnknown
    rcases hRest.ends (hSame ▸ hEnds) with ⟨last, hLast, -⟩
    exact ⟨last, hNone ▸ hLast⟩
  get policies keys := by
    rcases hRest.get policies ⟨name, keys⟩ with
      ⟨outcome, after, hRun, hRight⟩
    have hRefused : shared.contents.respond ⟨name, keys⟩ =
        .error (.notFound ("table " ++ name)) := by
      rw [Contents.respond, hName, hUnknown]
      rfl
    rw [hRefused] at hRight
    cases outcome with
    | ok response => cases hRight
    | error error =>
        cases hRight
        exact ⟨after, hRun⟩
  schema table := by
    rcases hRest.reads (ensures_schema rfl hRest.sound
      hRest.mirrors table) with ⟨_, after, hRun, rfl⟩
    refine ⟨_, after, hRun, get?_addToSchema ?_ .empty⟩
    intro pair hPair hOf
    simp only [Statement.schemaOf, List.mem_mergeSort,
      List.mem_flatMap] at hPair
    rcases hPair with ⟨row, hRow, hPair⟩
    have hRowName : row.name = name := by
      split at hPair
      · rcases List.mem_map.1 hPair with ⟨attr_, -, rfl⟩
        exact hOf
      · cases hPair
    have hThere : shared.contents.tableNamed? name =
        some row :=
      hRest.sound.tableNamed?_eq_some_iff.2 ⟨hRow, hRowName⟩
    rw [hUnknown] at hThere
    cases hThere

/- A request for a table that is not there starts it anew. -/
theorem Reachable.defines_anew
    (hReachable : Reachable shared)
    (policies : Policies)
    {request : Define}
    (hUnknown :
      shared.contents.tableNamed? request.table = none)
    (hProper : request.Proper)
    (hUniform : request.Uniform) :
    ∃ id last,
      (define policies request).advance (calm shared) =
          (.finished (.ok id), last) ∧
        shared.contents.Defined last.contents request
          shared.store.clock.cell id ∧
        ∃ table item, item.id = id ∧
          shared.contents.Anew last.contents request table
            item := by
  have hRest := hReachable.atRest
  have hCalm : Reachable (calm shared) :=
    hReachable.tail (.setFaults .none shared)
  have hSound : shared.contents.Sound := hRest.sound
  rcases comesTo_define hSound policies hProper with
    ⟨outcome, after, hComes, hVerdict, hAdds⟩
  rw [Contents.verdict_unknown hUnknown hUniform] at hVerdict
  cases outcome with
  | error error => cases hVerdict
  | ok id =>
      rcases hComes shared.caches hRest.mirrors with
        ⟨kept, hEnds, -⟩
      rcases hRest.ends hEnds with ⟨last, hRun, rfl, -⟩
      have hDefined := (define_reads_back hCalm hRun).2.1
      rcases (hCalm.atRest.runs policies
        (.define request)).advance with
        ⟨_, _, hSame, ⟨hLast, hAges⟩, -⟩
      cases hRun.symm.trans hSame
      exact ⟨id, last, hRun, hDefined, hSound.anew hLast hAges
        hUnknown hAdds hDefined⟩

/-
  When a table is dropped and nothing fails, the caches are
  empty, nothing shows the table any more, and of the contents
  only what belongs to it is missing, or nothing if there was
  no such table.  A request may create the table again, with
  any kinds, and finds nothing of the old one.
-/
theorem dropTable_forgets
    (hReachable : Reachable shared)
    (policies : Policies)
    (hWord : Word.isWord name = true)
    (hFree : Word.isReserved name = false) :
    ∃ after,
      (dropTable policies name).advance (calm shared) =
          (.finished (.ok ()), after) ∧
        after.caches = .empty ∧
        Forgets after name ∧
        (shared.contents.tableNamed? name = none →
          after.contents = shared.contents) ∧
        (∀ table,
          shared.contents.tableNamed? name = some table →
            shared.contents.Loses after.contents table) ∧
        ∀ policies request, request.table = name →
          request.Proper → request.Uniform →
            ∃ id last,
              (define policies request).advance
                  (calm after) =
                (.finished (.ok id), last) ∧
              after.contents.Defined last.contents request
                after.store.clock.cell id ∧
              ∃ table item, item.id = id ∧
                after.contents.Anew last.contents request
                  table item := by
  have hRest := hReachable.atRest
  have hSound : shared.contents.Sound := hRest.sound
  have hName : Check.dictionary "Table" name = .ok () :=
    Contents.dictionary_eq_ok hWord hFree
  rcases hRest.ends (ends_dropTable hSound policies hName
    shared.caches) with ⟨after, hRun, hContents, hCaches⟩
  have hAfter : Reachable after := by
    have hCalm : Reachable (calm shared) :=
      hReachable.tail (.setFaults .none shared)
    have hLast := hCalm.after_call policies (.dropTable name)
    rwa [Call.program, hRun] at hLast
  have hUnknown : after.contents.tableNamed? name = none := by
    rw [hContents]
    exact hSound.tableNamed?_withoutNamed name
  refine ⟨after, hRun, hCaches,
    hAfter.atRest.forgets hName hUnknown, ?_, ?_, ?_⟩
  · intro hNone
    rw [hContents, Contents.withoutNamed, hNone]
  · intro table hTable
    rw [hContents, Contents.withoutNamed, hTable]
    exact hSound.loses
      (hSound.tableNamed?_eq_some_iff.1 hTable).1
  · rintro policies request rfl hProper hUniform
    exact hAfter.defines_anew policies hUnknown hProper
      hUniform

/- A store with an item that has a text. -/
def withOwned : Shared :=
  ((define default
      ⟨"t", .text "k", [("a", some (.text "x"))]⟩).advance
    Moment.new.shared).2

/- The item goes, and numbers may come in its place. -/
theorem dropTable_forgets_owned :
    ∃ after id last,
      (dropTable default "t").advance (calm withOwned) =
          (.finished (.ok ()), after) ∧
        after.caches = .empty ∧
        Forgets after "t" ∧
        withOwned.contents.Loses after.contents
          ⟨1, "t", false⟩ ∧
        (define default ⟨"t", .number (.ofInt 5),
            [("a", some (.number (.ofInt 7)))]⟩).advance
            (calm after) =
          (.finished (.ok id), last) := by
  have hReachable : Reachable withOwned :=
    Reachable.after_call .refl default
      (.define ⟨"t", .text "k", [("a", some (.text "x"))]⟩)
  have hTable : withOwned.contents.tableNamed? "t" =
      some ⟨1, "t", false⟩ := by
    decide +kernel
  rcases dropTable_forgets hReachable default
    (by decide +kernel : Word.isWord "t" = true)
    (by decide +kernel) with
    ⟨after, hRun, hCaches, hForgets, -, hLoses, hAnew⟩
  have hProper : Define.Proper ⟨"t", .number (.ofInt 5),
      [("a", some (.number (.ofInt 7)))]⟩ := by
    constructor <;> decide +kernel
  have hUniform : Define.Uniform ⟨"t", .number (.ofInt 5),
      [("a", some (.number (.ofInt 7)))]⟩ := by
    intro name content other hContent hOther
    simp_all
  rcases hAnew default _ rfl hProper hUniform with
    ⟨id, last, hLast, -⟩
  exact ⟨after, id, last, hRun, hCaches, hForgets,
    hLoses _ hTable, hLast⟩

end Session

end SparseTables
