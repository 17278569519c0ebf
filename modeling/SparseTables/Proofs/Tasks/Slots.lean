import SparseTables.Proofs.Program.Settled
import SparseTables.Proofs.Tasks.Coherence

/-
  This file shows what the slots of items refer to when all
  tasks that share a session have come to their ends.

  If no removal has failed they refer to attributes of the
  table of their item and to values, and the attributes of
  the item can be read.  A removal that fails half way may
  leave slots behind that were added in the meantime.

  Main declarations:
    * `Contents.Refers`
    * `Program.Succeeds`
    * `Session.succeeds_metadataOf`
    * `Crowd.slots_refer_after_turns`
    * `Crowd.slots_dangle_after_failed_drop`
-/

namespace SparseTables

/- A slot has an attribute of a table, and a value. -/
def Contents.Refers
    (contents : Contents)
    (slot : Slot)
    (tableId : Int) : Prop :=
  (∃ row ∈ contents.attributes.rows,
    row.id = slot.attributeId ∧ row.tableId = tableId) ∧
  ∃ row ∈ contents.values.rows, row.id = slot.valueId

------------------------------------------------------------
-- Reading a store that answers
------------------------------------------------------------

/-
  Nobody holds the store, nothing is going to fail, and the
  caches mirror the contents.
-/
structure Shared.Answers
    (contents : Contents)
    (shared : Shared) : Prop where
  engine : shared.store.engine = ⟨contents, none⟩
  calm : shared.store.faults.Within .none
  mirrors : shared.caches.Mirrors contents

namespace Program

variable {α β : Type}
variable {contents : Contents}

/- A program comes to its end without an error. -/
def Succeeds
    (contents : Contents)
    (right : α → Prop)
    (program : Program α) : Prop :=
  ∀ shared : Shared, shared.Answers contents →
    program.Runs (Shared.Answers contents)
      (fun outcome _ => ∃ found,
        outcome = .ok found ∧ right found) shared

theorem succeeds_pure
    {right : α → Prop}
    {found : α}
    (hRight : right found) :
    (pure found : Program α).Succeeds contents right :=
  fun _ hAnswers => .done hAnswers ⟨found, rfl, hRight⟩

theorem Succeeds.bind
    {program : Program α}
    {next : α → Program β}
    {right : α → Prop}
    {last : β → Prop}
    (hFirst : program.Succeeds contents right)
    (hNext : ∀ found, right found →
      (next found).Succeeds contents last) :
    (program >>= next).Succeeds contents last := by
  intro shared hAnswers
  refine (hFirst shared hAnswers).andThen ?_
  rintro _ after hAfter ⟨found, rfl, hRight⟩
  exact hNext found hRight after hAfter

theorem succeeds_cached
    {update : Caches → Caches}
    {next : Caches → Program α}
    {right : α → Prop}
    (hNext : ∀ caches, caches.Mirrors contents →
      (update caches).Mirrors contents ∧
        (next (update caches)).Succeeds contents right) :
    (cached update next).Succeeds contents right := by
  intro shared hAnswers
  rcases hNext _ hAnswers.mirrors with ⟨hMirrors, hSucceeds⟩
  exact .step hAnswers rfl
    (hSucceeds _ { hAnswers with mirrors := hMirrors })

theorem succeeds_caches
    {next : Caches → Program α}
    {right : α → Prop}
    (hNext : ∀ caches, (next caches).Succeeds contents right) :
    (Program.caches >>= next).Succeeds contents right :=
  succeeds_cached fun caches hMirrors =>
    ⟨hMirrors, hNext caches⟩

theorem succeeds_keepAttribute
    {row : Attribute}
    (hRow : row ∈ contents.attributes.rows) :
    (keepAttribute row).Succeeds contents fun _ => True :=
  succeeds_cached fun _ hMirrors =>
    ⟨{ hMirrors with
      attributes := hMirrors.attributes.keep hRow },
      succeeds_pure trivial⟩

theorem succeeds_keepValue
    {content : Scalar}
    {id : Int}
    (hRow : ⟨id, content.normalized⟩ ∈
      contents.values.rows) :
    (keepValue content id).Succeeds contents
      fun _ => True :=
  succeeds_cached fun _ hMirrors =>
    ⟨{ hMirrors with
      values := hMirrors.values.keep hRow },
      succeeds_pure trivial⟩

/- What must be there is there. -/
theorem succeeds_required
    (what : String)
    {found : Option α}
    (hFound : found.isSome) :
    (required what found).Succeeds contents
      fun _ => True := by
  rcases Option.isSome_iff_exists.1 hFound with ⟨given, rfl⟩
  exact succeeds_pure trivial

/- A statement that only reads is answered. -/
theorem succeeds_read
    {asked : Statement}
    {answer : asked.Answer}
    (hRead : ∀ clock, asked.run clock contents =
      .ok (answer, contents)) :
    (Program.run asked).Succeeds contents (· = answer) := by
  rintro ⟨⟨engine, clock, faults⟩, caches⟩
    ⟨rfl, hCalm, hMirrors⟩
  rcases meet_calm hCalm (.shared asked) with
    ⟨later, hLater, hMeet⟩
  have hStep :
      (Program.run asked).step?
          ⟨⟨⟨contents, none⟩, clock, faults⟩, caches⟩ =
        some (done (.ok answer),
          ⟨⟨⟨contents, none⟩, clock, later⟩, caches⟩) := by
    simp [Program.run, request, step?, hMeet, Engine.blocks,
      Store.perform, Engine.perform, Engine.statement, hRead]
  exact .step ⟨rfl, hCalm, hMirrors⟩ hStep
    (.done ⟨rfl, hLater, hMirrors⟩ ⟨answer, rfl, rfl⟩)

end Program

open Program

variable {contents : Contents}

/- An attribute that is there is found by its identity, -/
theorem Attributes.succeeds_byId
    (hFormed : contents.Formed)
    {row : Attribute}
    (hRow : row ∈ contents.attributes.rows) :
    (byId row.id).Succeeds contents
      fun found => found.isSome := by
  have hFind : contents.attribute? row.id = some row :=
    hFormed.attributes.find?_eq_some_iff.2 ⟨hRow, rfl⟩
  refine succeeds_caches fun caches => ?_
  split
  · exact succeeds_pure rfl
  · refine (succeeds_read fun _ => rfl).bind ?_
    rintro _ rfl
    rw [hFind]
    exact (succeeds_keepAttribute hRow).bind
      fun _ _ => succeeds_pure rfl

/- and so is a value. -/
theorem Values.succeeds_byId
    (hFormed : contents.Formed)
    {row : Value}
    (hRow : row ∈ contents.values.rows) :
    (byId row.id).Succeeds contents
      fun found => found.isSome := by
  have hFind : contents.value? row.id = some row :=
    hFormed.values.find?_eq_some_iff.2 ⟨hRow, rfl⟩
  have hKept : ⟨row.id, row.content.normalized⟩ ∈
      contents.values.rows := by
    rw [hFormed.normalized row hRow]
    exact hRow
  refine succeeds_caches fun caches => ?_
  split
  · exact succeeds_pure rfl
  · refine (succeeds_read fun _ => rfl).bind ?_
    rintro _ rfl
    rw [hFind]
    exact (succeeds_keepValue hKept).bind
      fun _ _ => succeeds_pure rfl

namespace Session

theorem succeeds_addSlots
    (hFormed : contents.Formed)
    {tableId : Int}
    {slots : List Slot}
    (hRefers : ∀ slot ∈ slots, contents.Refers slot tableId)
    (metadata : Metadata) :
    (addSlots metadata slots).Succeeds contents
      fun _ => True := by
  induction slots generalizing metadata with
  | nil => exact succeeds_pure trivial
  | cons slot rest ih =>
      rcases List.forall_mem_cons.1 hRefers with
        ⟨⟨⟨row, hRow, hAttr, -⟩, value, hValue, hId⟩, hRest⟩
      rw [addSlots, ← hAttr, ← hId]
      refine (Attributes.succeeds_byId hFormed hRow).bind
        fun _ hFound => ?_
      refine (succeeds_required _ hFound).bind fun _ _ => ?_
      refine (Values.succeeds_byId hFormed hValue).bind
        fun _ hFound => ?_
      exact (succeeds_required _ hFound).bind
        fun _ _ => ih hRest _

/- The attributes of an item can be read. -/
theorem succeeds_metadataOf
    (hFormed : contents.Formed)
    {tableId itemId : Int}
    (hRefers : ∀ slot ∈ contents.slots,
      slot.itemId = itemId →
        contents.Refers slot tableId) :
    (metadataOf itemId).Succeeds contents
      fun _ => True := by
  refine (succeeds_read fun _ => rfl).bind ?_
  rintro _ rfl
  have hSlots : ∀ slot ∈ contents.slotsOf itemId,
      contents.Refers slot tableId := by
    intro slot hSlot
    rcases Contents.mem_slotsOf_iff.1 hSlot with
      ⟨hMem, hItem⟩
    exact hRefers slot hMem hItem
  exact succeeds_addSlots hFormed hSlots _

namespace Crowd

------------------------------------------------------------
-- When all tasks are done
------------------------------------------------------------

variable {crowd : Crowd}

/- No table is doomed then unless a removal has failed. -/
theorem Orderly.refers_of_isOver
    (hOrderly : crowd.Orderly)
    (hOver : crowd.isOver = true)
    (hNone : ¬crowd.Failed)
    {item : ItemRow}
    (hItem : item ∈ crowd.contents.items.rows)
    {slot : Slot}
    (hSlot : slot ∈ crowd.contents.slots)
    (hId : slot.itemId = item.id) :
    crowd.contents.Refers slot item.tableId := by
  have hSame := hOrderly.committed_of_isOver hOver
  rw [← hSame] at hItem hSlot ⊢
  have hNotDoomed : ¬crowd.Doomed item.tableId := by
    rintro (hFailed | ⟨-, hGone⟩ | ⟨duty, -, hRazing⟩)
    · exact hNone hFailed
    · rcases hOrderly.formed.itemTables item hItem with
        ⟨table, hTable, hOwns⟩
      exact hGone table hTable hOwns
    · exact Orderly.not_razing_of_isOver hOver duty hRazing
  rcases (hOrderly.fits.left slot hSlot).known item hItem
    hId.symm with ⟨hAttr, hValue⟩
  exact ⟨hAttr.resolve_left hNotDoomed,
    hValue.resolve_left hNotDoomed⟩

/-
  Tasks share a session, and take their turns in any order.
  When no call is in progress and no removal has failed, the
  slots of every item refer to attributes of its table and to
  values, and the item can be read.
-/
theorem slots_refer_after_turns
    {shared : Shared}
    (hReachable : Reachable shared)
    {choices : List Choice}
    (hWhole : ∀ choice ∈ choices, choice.IsWhole)
    (hFollow : (Crowd.of shared).follow choices =
      some crowd)
    (hOver : crowd.isOver = true)
    (hNone : ¬crowd.Failed)
    {item : ItemRow}
    (hItem : item ∈ crowd.contents.items.rows) :
    (∀ slot ∈ crowd.contents.slots,
      slot.itemId = item.id →
        crowd.contents.Refers slot item.tableId) ∧
    ∃ metadata after,
      (metadataOf item.id).advance
          (withFaults crowd.shared .none) =
        (.finished (.ok metadata), after) := by
  have hOrderly := (orderly_of_atRest
    hReachable.atRest).follow hWhole hFollow
  have hRefers : ∀ slot ∈ crowd.contents.slots,
      slot.itemId = item.id →
        crowd.contents.Refers slot item.tableId :=
    fun slot hSlot hId =>
      hOrderly.refers_of_isOver hOver hNone hItem hSlot hId
  have hAnswers : (withFaults crowd.shared .none).Answers
      crowd.contents :=
    ⟨congrArg (Engine.mk crowd.contents)
        (hOrderly.free_of_isOver hOver),
      by simp [withFaults, Faults.Within, Faults.none],
      hOrderly.mirrors_of_isOver hOver⟩
  have hFormed : crowd.contents.Formed :=
    hOrderly.committed_of_isOver hOver ▸ hOrderly.formed
  rcases (succeeds_metadataOf hFormed hRefers _
    hAnswers).advance with
    ⟨_, after, hRun, -, metadata, rfl, -⟩
  exact ⟨hRefers, metadata, after, hRun⟩

/- A store with an item. -/
def withItem : Shared :=
  ((define default
      ⟨"t", .text "k", [("a", some (.text "x"))]⟩).advance
    Moment.new.shared).2

theorem reachable_withItem : Reachable withItem :=
  Reachable.after_call .refl default
    (.define ⟨"t", .text "k", [("a", some (.text "x"))]⟩)

/- A table is dropped while an item of another is defined. -/
def defineTurns : List Choice :=
  [.start default (.dropTable "t"),
    .start default (.define
      ⟨"u", .text "l", [("a", some (.text "x"))]⟩)] ++
    (List.replicate 8 [.turn 0, .turn 1]).flatten ++
    List.replicate 8 (.turn 1)

/- The new item has its slot. -/
theorem slots_refer_after_drop :
    ∃ crowd,
      (Crowd.of withItem).follow defineTurns = some crowd ∧
      crowd.isOver = true ∧
      ¬crowd.Failed ∧
      ∃ item ∈ crowd.contents.items.rows,
        ⟨item.id, 2, 2⟩ ∈ crowd.contents.slots ∧
        crowd.contents.Refers ⟨item.id, 2, 2⟩
          item.tableId := by
  have hRun :
      ∃ crowd ∈ (Crowd.of withItem).follow defineTurns,
      crowd.isOver = true ∧
      ¬crowd.Failed ∧
      crowd.contents.items.rows.map ItemRow.id = [2] ∧
      crowd.contents.slots = [⟨2, 2, 2⟩] := by
    decide +kernel
  rcases hRun with
    ⟨crowd, hFollow, hOver, hNone, hItems, hSlots⟩
  rcases List.map_eq_singleton_iff.1 hItems with
    ⟨item, hRows, hId⟩
  have hItem : item ∈ crowd.contents.items.rows := by
    simp [hRows]
  have hSlot :
      ⟨item.id, 2, 2⟩ ∈ crowd.contents.slots := by
    simp [hSlots, hId]
  exact ⟨crowd, hFollow, hOver, hNone, item, hItem, hSlot,
    (slots_refer_after_turns reachable_withItem (by decide)
      hFollow hOver hNone hItem).1 _ hSlot rfl⟩

/-
  A table is dropped.  At first the item is defined again,
  which keeps the attribute.  Another item is defined with
  it when there are no attributes and no items any more.
-/
def dropHalfway : List Choice :=
  .start default (.dropTable "t") ::
    List.replicate 2 (.turn 0) ++
    .start default (.define
      ⟨"t", .text "k", [("a", some (.text "y"))]⟩) ::
    List.replicate 12 (.turn 1) ++
    List.replicate 5 (.turn 0) ++
    .start default (.define
      ⟨"t", .text "l", [("a", some (.text "x"))]⟩) ::
    List.replicate 12 (.turn 2) ++ [.turn 0]

/-
  The table cannot be removed because of the new item, whose
  slot refers to an attribute that is gone.
-/
theorem slots_dangle_after_failed_drop :
    Reachable withItem ∧
    ∃ crowd,
      (Crowd.of withItem).follow dropHalfway = some crowd ∧
      crowd.isOver = true ∧
      crowd.tasks.map Going.error? =
        [some (.store .foreignKey), none, none] ∧
      (∃ item ∈ crowd.contents.items.rows,
        ⟨item.id, 1, 2⟩ ∈ crowd.contents.slots ∧
        ¬crowd.contents.Refers ⟨item.id, 1, 2⟩
          item.tableId) ∧
      ((get default ⟨"t", [.text "l"]⟩).advance
        crowd.shared).1.error? =
          some (.notFound "name 1") := by
  have hRun :
      ∃ crowd ∈ (Crowd.of withItem).follow dropHalfway,
      crowd.isOver = true ∧
      crowd.tasks.map Going.error? =
        [some (.store .foreignKey), none, none] ∧
      crowd.contents.items.rows.map ItemRow.id = [2] ∧
      crowd.contents.slots = [⟨2, 1, 2⟩] ∧
      crowd.contents.attributes.rows = [] ∧
      ((get default ⟨"t", [.text "l"]⟩).advance
        crowd.shared).1.error? =
          some (.notFound "name 1") := by
    decide +kernel
  rcases hRun with ⟨crowd, hFollow, hOver, hErrors, hItems,
    hSlots, hEmpty, hGet⟩
  rcases List.map_eq_singleton_iff.1 hItems with
    ⟨item, hRows, hId⟩
  refine ⟨reachable_withItem, crowd, hFollow, hOver, hErrors,
    ⟨item, by simp [hRows], by simp [hSlots, hId], ?_⟩, hGet⟩
  rintro ⟨⟨row, hRow, -⟩, -⟩
  rw [hEmpty] at hRow
  cases hRow

end Crowd

end Session

end SparseTables
