import SparseTables.Proofs.Tasks.Resolving
import SparseTables.Session.Read

/-
  This file shows that every call of a session abides by the
  rules for tasks.  Only calls that drop a table or empty the
  dictionaries ever come to a duty.

  Main declarations:
    * `Program.Harmless`
    * `Session.learns_changesOf`
    * `Session.harmless_define`
    * `Session.razes_drop`
    * `Session.razes_wipe`
    * `Session.Call.isRemoval`
    * `Session.Call.abides`
-/

namespace SparseTables

namespace Program

variable {α β γ : Type}

------------------------------------------------------------
-- Sequences
------------------------------------------------------------

theorem andThen_done (program : Program α) :
    program.andThen done = program := by
  induction program with
  | done outcome => rfl
  | ask request next ih => exact congrArg _ (funext ih)
  | cached update next ih => exact congrArg _ (funext ih)

theorem andThen_andThen
    (program : Program α)
    (next : Except Error α → Program β)
    (last : Except Error β → Program γ) :
    (program.andThen next).andThen last =
      program.andThen fun outcome =>
        (next outcome).andThen last := by
  induction program with
  | done outcome => rfl
  | ask request go ih => exact congrArg _ (funext ih)
  | cached update go ih => exact congrArg _ (funext ih)

theorem map_id (program : Program α) :
    id <$> program = program := by
  refine Eq.trans (congrArg program.andThen
    (funext fun outcome => ?_)) program.andThen_done
  cases outcome <;> rfl

theorem bind_bind
    (program : Program α)
    (next : α → Program β)
    (last : β → Program γ) :
    program >>= next >>= last =
      program >>= fun found => next found >>= last := by
  refine (program.andThen_andThen _ _).trans
    (congrArg program.andThen (funext fun outcome => ?_))
  cases outcome <;> rfl

instance : LawfulMonad Program :=
  .mk' Program map_id (fun _ _ => rfl) bind_bind

------------------------------------------------------------
-- Programs that only have to abide
------------------------------------------------------------

/- A program abides, whatever it learns. -/
def Harmless (program : Program α) : Prop :=
  ∀ scene, program.Learns False (fun _ _ => True) scene

theorem Learns.harmless
    {program : Program α}
    {found : α → Scene → Prop}
    (hLearns : ∀ scene, program.Learns False found scene) :
    program.Harmless :=
  fun scene => (hLearns scene).mono fun _ _ _ => trivial

namespace Harmless

theorem bind
    {program : Program α}
    {next : α → Program β}
    (hFirst : program.Harmless)
    (hNext : ∀ found, (next found).Harmless) :
    (program >>= next).Harmless :=
  fun scene => (hFirst scene).bind
    fun found later _ _ => hNext found later

theorem pure (found : α) :
    (Pure.pure found : Program α).Harmless :=
  fun _ => learns_pure trivial

theorem done (outcome : Except Error α) :
    (Program.done outcome).Harmless := by
  cases outcome with
  | ok found => exact .pure found
  | error error => exact fun _ => learns_error error

theorem map
    {program : Program α}
    (change : α → β)
    (hProgram : program.Harmless) :
    (change <$> program).Harmless :=
  hProgram.bind fun _ => .pure _

theorem required
    (what : String)
    (found : Option α) :
    (Program.required what found).Harmless := by
  cases found <;> exact .done _

theorem run
    (asked : Statement)
    (hSpares : asked.Spares) :
    (Program.run asked).Harmless :=
  fun _ => learns_any asked hSpares

theorem attempt
    {program : Program α}
    (hProgram : program.Harmless) :
    program.attempt.Harmless :=
  fun scene => (hProgram scene).andThen
    fun _ _ _ hEnd => ⟨hEnd.1, fun _ _ => trivial⟩

theorem clearCaches_bind
    {next : Unit → Program α}
    (hNext : (next ()).Harmless) :
    (clearCaches >>= next).Harmless :=
  fun scene => learns_clearCaches_bind (hNext scene)

end Harmless

------------------------------------------------------------
-- Duties
------------------------------------------------------------

/- The caches are cleared whether a removal fails or not. -/
def removing (body : Program Unit) : Program Unit := do
  let removed ← attempt body
  clearCaches
  done removed

theorem razes_first
    {duty : Duty}
    {asked : Statement}
    {next : asked.Answer → Program Unit}
    (hAllows : duty.Allows asked)
    (hNext : ∀ answer, (removing (next answer)).Razes duty) :
    (removing (Program.run asked >>= next)).Razes duty := by
  refine ⟨asked, rfl, hAllows, ?_⟩
  rintro (error | answer)
  · exact Or.inr (Or.inl ⟨error, rfl⟩)
  · exact Or.inl (hNext answer)

theorem razes_last
    {duty : Duty}
    {next : duty.last.Answer → Program Unit}
    (hAllows : duty.Allows duty.last)
    (hNext : ∀ answer, next answer = pure ()) :
    (removing (Program.run duty.last >>= next)).Razes
      duty := by
  refine ⟨duty.last, rfl, hAllows, ?_⟩
  rintro (error | answer)
  · exact Or.inr (Or.inl ⟨error, rfl⟩)
  · refine Or.inr (Or.inr ⟨rfl, rfl, .ok (), ?_⟩)
    change removing (next answer) = _
    rw [hNext answer]
    rfl

end Program

open Program

namespace Session

------------------------------------------------------------
-- Reading
------------------------------------------------------------

theorem harmless_knownAmong
    (policies : Policies)
    (table : Table)
    (columns : List String) :
    (knownAmong policies table columns).Harmless := by
  induction columns with
  | nil => exact .pure []
  | cons column rest ih =>
      rw [knownAmong]
      split
      · exact ih
      · exact (Learns.harmless (Attributes.learns_resolve _ _
          _ _ _)).bind fun _ => ih.bind fun _ => .pure _

theorem harmless_compile
    (policies : Policies)
    (query : Select) :
    (compile policies query).Harmless := by
  refine (Harmless.done _).bind fun _ => ?_
  refine (Learns.harmless (Tables.learns_resolve _ _ _
    _)).bind fun table => ?_
  cases table with
  | none => exact (Harmless.pure []).bind fun _ => .pure _
  | some row =>
      exact (harmless_knownAmong policies row _).bind
        fun _ => .pure _

theorem harmless_select
    (policies : Policies)
    (query : Select) :
    (select policies query).Harmless :=
  (harmless_compile policies query).bind fun _ =>
    (Harmless.run (.select _ _) trivial).bind
      fun _ => .pure _

theorem harmless_scalar
    (policies : Policies)
    (query : Select) :
    (scalar policies query).Harmless :=
  (harmless_select policies query).bind fun _ => .pure _

theorem harmless_integer
    (policies : Policies)
    (query : Select) :
    (integer policies query).Harmless :=
  (harmless_scalar policies query).bind fun _ => .done _

theorem harmless_list
    (policies : Policies)
    (query : Select) :
    (list policies query).Harmless :=
  (harmless_select policies query).bind fun _ => .pure _

theorem harmless_pairs
    (policies : Policies)
    (query : Select) :
    (pairs policies query).Harmless := by
  refine (harmless_select policies query).bind
    fun found => ?_
  dsimp only
  split
  · exact .done _
  · exact .pure _

theorem harmless_addSlots
    (metadata : Metadata)
    (slots : List Slot) :
    (addSlots metadata slots).Harmless := by
  induction slots generalizing metadata with
  | nil => exact .pure metadata
  | cons slot rest ih =>
      refine (Learns.harmless (Attributes.learns_byId
        _)).bind fun _ => (Harmless.required _ _).bind
          fun _ => ?_
      exact (Learns.harmless (Values.learns_byId _)).bind
        fun _ => (Harmless.required _ _).bind fun _ => ih _

theorem harmless_metadataOf (itemId : Int) :
    (metadataOf itemId).Harmless :=
  (Harmless.run (.slotsOf itemId) trivial).bind
    fun _ => harmless_addSlots _ _

theorem harmless_itemUnder
    (policies : Policies)
    (table : Table)
    (key : Scalar) :
    (itemUnder policies table key).Harmless := by
  refine (Learns.harmless (Values.learns_resolve _ _
    _)).bind fun found => ?_
  cases found with
  | none => exact .pure none
  | some valueId =>
      exact Learns.harmless (Items.learns_resolve _ _ _ _)

theorem harmless_getEach
    (policies : Policies)
    (table : Table)
    (keys : List Scalar) :
    (getEach policies table keys).Harmless := by
  induction keys with
  | nil => exact .pure []
  | cons key rest ih =>
      refine (harmless_itemUnder policies table key).bind
        fun found => ?_
      cases found with
      | none =>
          exact (Harmless.pure none).bind fun _ =>
            ih.bind fun _ => .pure _
      | some itemId =>
          exact ((harmless_metadataOf itemId).map _).bind
            fun _ => ih.bind fun _ => .pure _

theorem harmless_get
    (policies : Policies)
    (request : GetRequest) :
    (get policies request).Harmless :=
  (Learns.harmless (Tables.learns_resolve _ _ _ _)).bind
    fun _ => (Harmless.required _ _).bind fun table =>
      (harmless_getEach policies table _).bind
        fun _ => .pure _

theorem harmless_getRows
    (rows : List (List (Option Scalar))) :
    (getRows rows).Harmless := by
  induction rows using getRows.induct with
  | case1 => exact .pure []
  | case2 id key more rest ih =>
      exact (harmless_metadataOf _).bind fun _ =>
        ih.bind fun _ => .pure _
  | case3 row rest hNot ih =>
      rw [getRows]
      · exact ih
      · exact hNot

theorem harmless_queryGet
    (policies : Policies)
    (query : Select) :
    (queryGet policies query).Harmless :=
  (harmless_select policies _).bind fun _ =>
    (harmless_getRows _).bind fun _ => .pure _

theorem harmless_summarize (itemId : Int) :
    (summarize itemId).Harmless := by
  refine (Learns.harmless (Items.learns_byId _)).bind
    fun _ => (Harmless.required _ _).bind fun _ => ?_
  refine (Learns.harmless (Tables.learns_byId _)).bind
    fun _ => (Harmless.required _ _).bind fun _ => ?_
  refine (Learns.harmless (Values.learns_byId _)).bind
    fun _ => (Harmless.required _ _).bind fun _ => ?_
  exact (harmless_metadataOf itemId).bind fun _ => .pure _

------------------------------------------------------------
-- Writing
------------------------------------------------------------

/- What a change of a slot of some table's item refers to. -/
def KnowsChange
    (scene : Scene)
    (tableId : Int)
    (change : SlotChange) : Prop :=
  scene.KnowsAttribute tableId change.attributeId ∧
    ∀ valueId, change.valueId = some valueId →
      scene.KnowsValue tableId valueId

theorem KnowsChange.later
    {scene later : Scene}
    (hBecomes : scene.Becomes later)
    {tableId : Int}
    (hTable : scene.KnowsTable tableId)
    {change : SlotChange}
    (hChange : KnowsChange scene tableId change) :
    KnowsChange later tableId change :=
  ⟨hBecomes.knowsAttribute hTable hChange.1,
    fun valueId hValue =>
      hBecomes.knowsValue hTable (hChange.2 valueId hValue)⟩

theorem learns_changeOf
    (policies : Policies)
    {tableId : Int}
    (name : String)
    (content : Option Scalar)
    {scene : Scene}
    (hTable : scene.KnowsTable tableId) :
    (changeOf policies tableId name content).Learns False
      (fun given later => ∀ change, given = some change →
        KnowsChange later tableId change) scene := by
  cases content with
  | none =>
      refine (Attributes.learns_resolve _ _ _ _ _ scene).bind
        fun known later _ hKnown => learns_pure ?_
      intro change hChange
      rcases Option.map_eq_some_iff.1 hChange with
        ⟨row, hRow, rfl⟩
      exact ⟨hKnown row hRow, fun _ hNone => by cases hNone⟩
  | some content =>
      refine learns_check_bind fun _ _ => ?_
      refine (Attributes.learns_resolve _ _ _ _ _ scene).bind
        fun found later hLater hFound => ?_
      refine learns_required_bind _ fun row hRow => ?_
      refine learns_check_bind fun _ _ => ?_
      refine (Values.learns_resolve _ _ _ later).bind
        fun given last hLast hGiven => ?_
      refine learns_required_bind _ fun valueId hValue =>
        learns_pure ?_
      rintro _ ⟨⟩
      refine ⟨hLast.knowsAttribute (hLater.knowsTable hTable)
        (hFound row hRow), ?_⟩
      rintro _ ⟨⟩
      exact hGiven valueId hValue tableId

theorem learns_changesOf
    (policies : Policies)
    {tableId : Int}
    (entries : List (String × Option Scalar))
    {scene : Scene}
    (hTable : scene.KnowsTable tableId) :
    (changesOf policies tableId entries).Learns False
      (fun changes later => ∀ change ∈ changes,
        KnowsChange later tableId change) scene := by
  induction entries generalizing scene with
  | nil =>
      exact learns_pure fun _ hNone => by cases hNone
  | cons entry rest ih =>
      refine (learns_changeOf policies entry.1 entry.2
        hTable).bind fun first later hLater hFirst => ?_
      have hLaterTable := hLater.knowsTable hTable
      refine (ih hLaterTable).bind
        fun more last hLast hMore => learns_pure ?_
      intro change hChange
      rcases List.mem_append.1 hChange with hHere | hThere
      · exact (hFirst change (Option.mem_toList.1
          hHere)).later hLast hLaterTable
      · exact hMore change hThere

/- A definition adds slots of the item that it has found. -/
theorem harmless_define
    (policies : Policies)
    (request : Define) :
    (define policies request).Harmless := by
  intro scene
  refine learns_check_bind fun _ _ => ?_
  refine (Tables.learns_resolve _ _ _ _ scene).bind
    fun found first _ hFound => ?_
  refine learns_required_bind _ fun table hTable => ?_
  have hKnown := hFound table hTable
  refine learns_check_bind fun _ _ => ?_
  refine (Values.learns_resolve _ _ _ first).bind
    fun key second hSecond _ => ?_
  refine learns_required_bind _ fun keyId _ => ?_
  refine (Items.learns_resolve _ table.id _ _ second).bind
    fun given third hThird hGiven => ?_
  refine learns_required_bind _ fun itemId hItem => ?_
  refine (learns_changesOf policies _ ((hSecond.trans
    hThird).knowsTable hKnown)).bind
      fun changes last hLast hChanges => ?_
  refine (Items.learns_setSlots itemId ?_).bind
    fun _ _ _ _ => learns_pure trivial
  intro change hChange valueId hValue
  have hChange := hChanges change hChange
  exact (hLast.knowsItem (hGiven itemId hItem)).fits
    hChange.1 (hChange.2 valueId hValue)

theorem harmless_createTable
    (policies : Policies)
    (name : String)
    (numeric : Bool) :
    (createTable policies name numeric).Harmless :=
  (Learns.harmless (Tables.learns_resolve _ _ _ _)).bind
    fun _ => (Harmless.required _ _).bind fun _ => .pure ()

theorem harmless_itemsUnder
    (policies : Policies)
    (table : Table)
    (keys : List Scalar) :
    (itemsUnder policies table keys).Harmless := by
  induction keys with
  | nil => exact .pure []
  | cons key rest ih =>
      exact (harmless_itemUnder policies table key).bind
        fun _ => ih.bind fun _ => .pure _

theorem harmless_delete
    (policies : Policies)
    (name : String)
    (keys : List Scalar) :
    (delete policies name keys).Harmless := by
  refine (Learns.harmless (Tables.learns_resolve _ _ _
    _)).bind fun found => ?_
  cases found with
  | none => exact .pure ()
  | some table =>
      exact (harmless_itemsUnder policies table keys).bind
        fun doomed => (Learns.harmless
          (Items.learns_remove doomed)).bind fun _ => .pure ()

------------------------------------------------------------
-- Removing
------------------------------------------------------------

/- The statements that drop a table. -/
theorem razes_drop (tableId : Int) :
    (removing do
      Attributes.purge tableId
      Items.purge tableId
      Tables.remove tableId).Razes (.drop tableId) := by
  simp only [Attributes.purge, Items.purge, Tables.remove,
    bind_assoc, pure_bind]
  refine razes_first (Or.inl trivial) fun _ => ?_
  refine razes_first (Or.inr (Or.inl rfl)) fun _ => ?_
  refine razes_first (Or.inl trivial) fun _ => ?_
  refine razes_first (Or.inl trivial) fun _ => ?_
  refine razes_first (Or.inl trivial) fun _ => ?_
  exact razes_last (Or.inr (Or.inr rfl)) fun _ => rfl

/- The statements that empty the store. -/
theorem razes_wipe :
    (reset true).Razes .wipe := by
  change (removing do
    Items.reset
    Values.reset
    Attributes.reset
    Tables.reset).Razes .wipe
  simp only [Items.reset, Values.reset, Attributes.reset,
    Tables.reset, bind_assoc, pure_bind]
  refine razes_first (Or.inl trivial) fun _ => ?_
  refine razes_first (Or.inl trivial) fun _ => ?_
  refine razes_first (Or.inr (Or.inl rfl)) fun _ => ?_
  refine razes_first (Or.inr (Or.inr (Or.inl rfl)))
    fun _ => ?_
  exact razes_last (Or.inr (Or.inr (Or.inr rfl)))
    fun _ => rfl

theorem learns_dropTable
    (policies : Policies)
    (name : String)
    (scene : Scene) :
    (dropTable policies name).Learns True (fun _ _ => True)
      scene := by
  refine learns_clearCaches_bind ?_
  refine (Tables.learns_resolve _ _ _ _ scene).bind
    fun found later _ _ => ?_
  cases found with
  | none => exact learns_pure trivial
  | some table =>
      exact Abides.of_razes trivial (razes_drop table.id)

/- A reset that spares the dictionaries has no duty. -/
theorem harmless_reset : (reset false).Harmless :=
  (Harmless.bind (Harmless.bind
    (.run .removeSlots trivial) fun _ =>
      (Harmless.run .removeItems trivial).bind
        fun _ => .pure ()) fun _ => .pure ()).attempt.bind
          fun removed => .clearCaches_bind (.done removed)

------------------------------------------------------------
-- All calls
------------------------------------------------------------

namespace Call

/- Does a call remove rows of dictionaries? -/
def isRemoval : Call → Bool
  | dropTable _ | reset true => true
  | _ => false

/- Every call abides by the rules for tasks. -/
theorem abides
    (policies : Policies)
    (call : Call)
    (scene : Scene) :
    (call.program policies).Abides call.isRemoval
      (fun _ phase _ => phase = .apart) .apart scene := by
  have hHarmless
      {α : Type}
      {raze : Prop}
      {program : Program α}
      (hProgram : program.Harmless) :
      program.Abides raze (fun _ phase _ => phase = .apart)
        .apart scene :=
    Abides.mono (hProgram scene) False.elim
      fun _ _ _ hEnd => hEnd.1
  cases call with
  | define request => exact hHarmless (harmless_define _ _)
  | createTable name numeric =>
      exact hHarmless (harmless_createTable _ _ _)
  | delete name keys => exact hHarmless (harmless_delete _ _ _)
  | dropTable name =>
      exact Abides.mono (learns_dropTable policies name scene)
        (fun _ => rfl) fun _ _ _ hEnd => hEnd.1
  | reset dictionaries =>
      cases dictionaries with
      | false => exact hHarmless harmless_reset
      | true => exact Abides.of_razes rfl razes_wipe
  | get request => exact hHarmless (harmless_get _ _)
  | queryGet query => exact hHarmless (harmless_queryGet _ _)
  | item id =>
      exact hHarmless (Learns.harmless (Items.learns_byId _))
  | summarize id => exact hHarmless (harmless_summarize _)
  | schema table =>
      exact hHarmless ((Harmless.run (.schema _) trivial).bind
        fun _ => .pure _)
  | compile query => exact hHarmless (harmless_compile _ _)
  | select query => exact hHarmless (harmless_select _ _)
  | scalar query => exact hHarmless (harmless_scalar _ _)
  | integer query => exact hHarmless (harmless_integer _ _)
  | list query => exact hHarmless (harmless_list _ _)
  | pairs query => exact hHarmless (harmless_pairs _ _)
  | rowId table key =>
      exact hHarmless ((Harmless.done _).bind
        fun _ => harmless_integer _ _)
  | rowValue table id =>
      exact hHarmless ((Harmless.done _).bind
        fun _ => harmless_scalar _ _)

end Call

end Session

end SparseTables
