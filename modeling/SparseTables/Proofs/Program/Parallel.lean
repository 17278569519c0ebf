import SparseTables.Proofs.Contents.Shifting
import SparseTables.Proofs.Program.Wiping
import SparseTables.Proofs.Program.Yields

/-
  This file runs two programs side by side, on stores with
  the same rows under shifted identities.

  Programs are parallel if they make the same requests up to
  the shift, and go on in parallel with every answer.  While
  the store does not fail they end alike, and leave the same
  rows and the same caches up to the shift.

  Where this depends on the rows, a program follows another
  from one store on, and echoes it if it does so whatever the
  caches hold.

  Main declarations:
    * `Caches.shifted`
    * `Request.Twins`
    * `Program.Parallel`
    * `Program.Parallel.advance`
    * `Program.Follows`
    * `Program.Follows.bind`
    * `Program.Echoes`
    * `Program.Echoes.bind`
-/

namespace SparseTables

------------------------------------------------------------
-- Caches
------------------------------------------------------------

namespace Keeper

variable {κ ρ : Type} [DecidableEq κ] [Keyed ρ κ]

/- Kept rows with their keys and identities changed. -/
def shifted
    (keeper : Keeper κ ρ)
    (onKey : κ → κ)
    (onRow : ρ → ρ)
    (by_ : Int) : Keeper κ ρ where
  byKey := keeper.byKey.map (Prod.map onKey onRow)
  byId := keeper.byId.map (Prod.map (· + by_) onRow)

variable {onKey : κ → κ} {onRow : ρ → ρ} {by_ : Int}

omit [Keyed ρ κ] in
theorem get?_shifted
    (keeper : Keeper κ ρ)
    (hKeys : Function.Injective onKey)
    (key : κ) :
    (keeper.shifted onKey onRow by_).get? (onKey key) =
      (keeper.get? key).map onRow := by
  refine lookup_map_of onKey key (fun other => ?_) onRow
    keeper.byKey
  rw [Bool.eq_iff_iff, beq_iff_eq, beq_iff_eq]
  exact hKeys.eq_iff

omit [DecidableEq κ] [Keyed ρ κ] in
theorem lookup?_shifted
    (keeper : Keeper κ ρ)
    (id : Int) :
    (keeper.shifted onKey onRow by_).lookup? (id + by_) =
      (keeper.lookup? id).map onRow :=
  lookup_map_of (· + by_) id
    (fun other => beq_shifted id other by_) onRow keeper.byId

/- A changed row is kept as the row is. -/
theorem keep_shifted
    (keeper : Keeper κ ρ)
    (onKey : κ → κ)
    (onRow : ρ → ρ)
    (by_ : Int)
    (hKeys : Function.Injective onKey)
    (hKey : ∀ row, Keyed.key (onRow row) =
      onKey (Keyed.key row))
    (hId : ∀ row : ρ, Keyed.id (onRow row) =
      Keyed.id row + by_)
    (row : ρ) :
    ((keeper.shifted onKey onRow by_).keep (onRow row)).2 =
      (keeper.keep row).2.shifted onKey onRow by_ := by
  simp only [keep, hKey, keeper.get?_shifted hKeys]
  cases keeper.get? (Keyed.key row) with
  | none => simp [shifted, hId]
  | some kept => simp [shifted, hId]

end Keeper

namespace ValueKeeper

/- Kept scalars under larger identities. -/
def shifted (keeper : ValueKeeper) (by_ : Int) : ValueKeeper :=
  ⟨keeper.pairs.map (Prod.map id (· + by_))⟩

variable (keeper : ValueKeeper) (by_ : Int)

theorem get?_shifted (value : Scalar) :
    (keeper.shifted by_).get? value =
      (keeper.get? value).map (· + by_) := by
  simp only [get?, shifted]
  rw [find?_map_of (fun _ => rfl), Option.map_map,
    Option.map_map]
  rfl

theorem lookup?_shifted (kept : Int) :
    (keeper.shifted by_).lookup? (kept + by_) =
      keeper.lookup? kept := by
  have hSame (pair : Scalar × Int) :
      ((Prod.map id (· + by_) pair).2 == kept + by_) =
        (pair.2 == kept) :=
    beq_shifted pair.2 kept by_
  simp only [lookup?, shifted]
  rw [find?_map_of hSame, Option.map_map]
  rfl

theorem keep_shifted (value : Scalar) (id : Int) :
    (keeper.shifted by_).keep value (id + by_) =
      (keeper.keep value id).shifted by_ := by
  simp only [keep, shifted, List.map_cons, List.filter_map,
    Function.comp_def, overlaps, Prod.map, beq_shifted]
  rfl

end ValueKeeper

/- The key of an attribute in a table. -/
def Shift.key
    (shift : Shift)
    (key : Int × String) : Int × String :=
  (key.1 + shift.tables, key.2)

theorem Shift.key_injective (shift : Shift) :
    Function.Injective shift.key := by
  rintro ⟨x, name⟩ ⟨y, other⟩ hSame
  simpa [key] using hSame

/- What is kept, with larger identities. -/
def Caches.shifted (shift : Shift) (caches : Caches) :
    Caches where
  tables :=
    caches.tables.shifted id (Table.shifted shift)
      shift.tables
  attributes :=
    caches.attributes.shifted shift.key
      (Attribute.shifted shift) shift.attributes
  values := caches.values.shifted shift.values

------------------------------------------------------------
-- Stores
------------------------------------------------------------

def Hold.shifted (shift : Shift) (hold : Hold) : Hold :=
  { hold with saved := hold.saved.map (Contents.shifted shift) }

def Engine.shifted (shift : Shift) (engine : Engine) :
    Engine where
  contents := engine.contents.shifted shift
  hold := engine.hold.map (Hold.shifted shift)

def Shared.shifted (shift : Shift) (shared : Shared) :
    Shared where
  store :=
    { shared.store with
      engine := shared.store.engine.shifted shift }
  caches := shared.caches.shifted shift

/- Without planned failures no request fails. -/
theorem Store.meet_none
    {store : Store}
    (hCalm : store.faults = .none)
    (request : Request) :
    store.meet request = (none, store) := by
  rcases store with ⟨engine, clock, faults⟩
  have hNone : faults = .none := hCalm
  subst hNone
  unfold meet
  split <;> rfl

------------------------------------------------------------
-- Requests
------------------------------------------------------------

/-
  A request and its twin wait alike, give the same answer up
  to a change, and leave the same rows up to the shift.
-/
structure Request.Twins
    (shift : Shift)
    (asked twin : Request)
    (give : asked.Answer → twin.Answer) : Prop where
  blocks : ∀ engine : Engine,
    (engine.shifted shift).blocks twin = engine.blocks asked
  perform : ∀ clock (engine : Engine),
    (engine.shifted shift).perform clock twin =
      Prod.map (Except.map give) (Engine.shifted shift)
        (engine.perform clock asked)

namespace Request

variable {shift : Shift}

/- A statement is made by all, or within the transaction. -/
theorem statement_shifted
    {asked twin : Statement}
    {give : asked.Answer → twin.Answer}
    (hTwins : asked.Twins shift twin give)
    (clock : Clock)
    (engine : Engine) :
    (engine.shifted shift).statement clock twin =
      Prod.map (Except.map give) (Engine.shifted shift)
        (engine.statement clock asked) := by
  have hRun := hTwins clock engine.contents
  simp only [Engine.statement, Engine.shifted, hRun]
  cases asked.run clock engine.contents with
  | error error => rfl
  | ok answered => rfl

theorem twins_shared
    {asked twin : Statement}
    {give : asked.Answer → twin.Answer}
    (hTwins : asked.Twins shift twin give) :
    Request.Twins shift (.shared asked) (.shared twin) give where
  blocks engine := by
    simp only [Engine.blocks, Engine.shifted,
      Option.isSome_map]
  perform := statement_shifted hTwins

theorem twins_held
    {asked twin : Statement}
    {give : asked.Answer → twin.Answer}
    (hTwins : asked.Twins shift twin give) :
    Request.Twins shift (.held asked) (.held twin) give where
  blocks _ := rfl
  perform := statement_shifted hTwins

theorem twins_begin :
    Request.Twins shift .begin .begin id where
  blocks engine := by
    simp only [Engine.blocks, Engine.shifted,
      Option.isSome_map]
  perform _ _ := rfl

theorem twins_commit :
    Request.Twins shift .commit .commit id where
  blocks _ := rfl
  perform _ engine := by
    rcases engine with ⟨contents, _ | ⟨_ | further, _ | saved⟩⟩
    all_goals rfl

theorem twins_release :
    Request.Twins shift .release .release id where
  blocks _ := rfl
  perform _ engine := by
    rcases engine with ⟨contents, _ | ⟨_ | further, _ | saved⟩⟩
    all_goals rfl

end Request

------------------------------------------------------------
-- Programs
------------------------------------------------------------

namespace Program

variable {α β γ δ : Type} {shift : Shift}

/-
  Two programs make the same requests up to the shift and
  treat the caches alike, whatever they are answered.
-/
inductive Parallel
    (shift : Shift)
    (give : α → β) : Program α → Program β → Prop where
  | done (outcome : Except Error α) :
      Parallel shift give (done outcome)
        (done (outcome.map give))
  | ask
      {asked twin : Request}
      {answer : asked.Answer → twin.Answer}
      (hTwins : asked.Twins shift twin answer)
      {next : Except Error asked.Answer → Program α}
      {next' : Except Error twin.Answer → Program β}
      (hNext : ∀ found,
        Parallel shift give (next found)
          (next' (found.map answer))) :
      Parallel shift give (ask asked next) (ask twin next')
  | cached
      {update update' : Caches → Caches}
      (hUpdate : ∀ caches,
        update' (caches.shifted shift) =
          (update caches).shifted shift)
      {next : Caches → Program α}
      {next' : Caches → Program β}
      (hNext : ∀ caches,
        Parallel shift give (next caches)
          (next' (caches.shifted shift))) :
      Parallel shift give (cached update next)
        (cached update' next')

/- Without planned failures none come to be planned. -/
theorem calm_of_advance
    {program : Program α}
    {progress : Progress α}
    {shared after : Shared}
    (hEnd : program.advance shared = (progress, after))
    (hCalm : shared.store.faults = .none) :
    after.store.faults = .none := by
  induction program generalizing shared with
  | done outcome =>
      cases hEnd
      exact hCalm
  | cached update next ih => exact ih _ hEnd hCalm
  | ask asked next ih =>
      simp only [advance, Store.meet_none hCalm asked] at hEnd
      split at hEnd
      · cases hEnd
        exact hCalm
      · exact ih _ hEnd
          ((Store.faults_perform _ _ _).trans hCalm)

namespace Parallel

variable {give : α → β} {give' : γ → δ}
variable {program : Program α} {twin : Program β}

/- Parallel programs end alike. -/
theorem advance
    (hParallel : Parallel shift give program twin)
    {shared after : Shared}
    {outcome : Except Error α}
    (hEnd : program.advance shared =
      (.finished outcome, after))
    (hCalm : shared.store.faults = .none) :
    twin.advance (shared.shifted shift) =
      (.finished (outcome.map give), after.shifted shift) := by
  induction hParallel generalizing shared with
  | done given =>
      cases hEnd
      rfl
  | @cached update update' hUpdate next next' _ ih =>
      simp only [Program.advance]
      rw [← ih _ hEnd hCalm]
      simp only [Shared.shifted, hUpdate]
  | @ask asked twin answer hTwins next next' _ ih =>
      rcases shared with ⟨⟨engine, clock, faults⟩, caches⟩
      simp only [Program.advance,
        Store.meet_none hCalm asked] at hEnd
      split at hEnd
      · cases hEnd
      rename_i hFree
      have hLater := ih _ hEnd
        ((Store.faults_perform _ _ _).trans hCalm)
      have hCalm' : (Shared.shifted shift
          ⟨⟨engine, clock, faults⟩, caches⟩).store.faults =
            .none := hCalm
      rw [← hLater]
      simp only [Program.advance,
        Store.meet_none hCalm' twin]
      rw [if_neg (by
        rw [Shared.shifted, hTwins.blocks]
        exact hFree)]
      simp only [Shared.shifted, Store.perform,
        Option.map_none, hTwins.perform, Prod.map]

------------------------------------------------------------
-- Sequences
------------------------------------------------------------

/- Only outcomes that the first part can give matter. -/
theorem andThen_of
    {next : Except Error α → Program γ}
    {next' : Except Error β → Program δ}
    (hFirst : Parallel shift give program twin)
    (hNext : ∀ outcome, program.Yields outcome →
      Parallel shift give' (next outcome)
        (next' (outcome.map give))) :
    Parallel shift give' (program.andThen next)
      (twin.andThen next') := by
  induction hFirst with
  | done outcome => exact hNext outcome (.done outcome)
  | ask hTwins _ ih =>
      exact .ask hTwins fun found => ih found
        fun outcome hYields =>
          hNext outcome (.ask found hYields)
  | cached hUpdate _ ih =>
      exact .cached hUpdate fun caches => ih caches
        fun outcome hYields =>
          hNext outcome (.cached caches hYields)

theorem andThen
    {next : Except Error α → Program γ}
    {next' : Except Error β → Program δ}
    (hFirst : Parallel shift give program twin)
    (hNext : ∀ outcome,
      Parallel shift give' (next outcome)
        (next' (outcome.map give))) :
    Parallel shift give' (program.andThen next)
      (twin.andThen next') :=
  hFirst.andThen_of fun outcome _ => hNext outcome

/- An error ends both sequences. -/
theorem bind_of
    {next : α → Program γ}
    {next' : β → Program δ}
    (hFirst : Parallel shift give program twin)
    (hNext : ∀ found, program.Yields (.ok found) →
      Parallel shift give' (next found)
        (next' (give found))) :
    Parallel shift give' (program >>= next)
      (twin >>= next') := by
  refine hFirst.andThen_of fun outcome hYields => ?_
  cases outcome with
  | ok found => exact hNext found hYields
  | error error => exact .done (.error error)

theorem bind
    {next : α → Program γ}
    {next' : β → Program δ}
    (hFirst : Parallel shift give program twin)
    (hNext : ∀ found,
      Parallel shift give' (next found)
        (next' (give found))) :
    Parallel shift give' (program >>= next)
      (twin >>= next') :=
  hFirst.bind_of fun found _ => hNext found

theorem pure
    (give : α → β)
    (found : α) :
    Parallel shift give (Pure.pure found)
      (Pure.pure (give found)) :=
  .done (.ok found)

theorem throw (give : α → β) (error : Error) :
    Parallel shift give (MonadExceptOf.throw error)
      (MonadExceptOf.throw error) :=
  .done (.error error)

/- Results are changed behind both programs. -/
theorem map
    {change : α → γ}
    {change' : β → δ}
    (hProgram : Parallel shift give program twin)
    (hSame : ∀ found, change' (give found) =
      give' (change found)) :
    Parallel shift give' (change <$> program)
      (change' <$> twin) := by
  refine hProgram.bind fun found => ?_
  rw [Function.comp_apply, Function.comp_apply, hSame]
  exact .pure give' _

/- A call goes on if a check accepts. -/
theorem check
    {next : α → Program γ}
    {next' : α → Program δ}
    (check : Except Error α)
    (hNext : ∀ found,
      Parallel shift give' (next found) (next' found)) :
    Parallel shift give' (Program.done check >>= next)
      (Program.done check >>= next') := by
  cases check with
  | ok found => exact hNext found
  | error error => exact .done (.error error)

/- A call goes on with what must be there. -/
theorem required
    (give : α → β)
    (what : String)
    (found : Option α) :
    Parallel shift give (Program.required what found)
      (Program.required what (found.map give)) := by
  cases found with
  | none => exact .done (.error (.notFound what))
  | some found => exact .done (.ok found)

theorem attempt
    (hProgram : Parallel shift give program twin) :
    Parallel shift (Except.map give) program.attempt
      twin.attempt :=
  hProgram.andThen fun outcome => .done (.ok outcome)

/- Both programs are attempted as often. -/
theorem attempts
    (policy : Policy)
    (label : String)
    (hProgram : Parallel shift give program twin) :
    Parallel shift give (policy.run label program)
      (policy.run label twin) := by
  have hFrom (attempts further : Nat) :
      Parallel shift give
        (Policy.runFrom label attempts program further)
        (Policy.runFrom label attempts twin further) := by
    induction further with
    | zero =>
        refine hProgram.andThen ?_
        rintro (error | found)
        · simp only [Except.map]
          split
          · exact .throw give _
          · exact .throw give _
        · exact .done (.ok found)
    | succ further ih =>
        refine hProgram.andThen ?_
        rintro (error | found)
        · simp only [Except.map]
          split
          · exact ih
          · exact .throw give _
        · exact .done (.ok found)
  exact hFrom _ _

------------------------------------------------------------
-- Requests
------------------------------------------------------------

theorem request
    {asked twin : Request}
    {answer : asked.Answer → twin.Answer}
    (hTwins : asked.Twins shift twin answer) :
    Parallel shift answer (Program.request asked)
      (Program.request twin) :=
  .ask hTwins fun found => .done found

theorem run
    {asked twin : Statement}
    {answer : asked.Answer → twin.Answer}
    (hTwins : asked.Twins shift twin answer) :
    Parallel shift answer (Program.run asked)
      (Program.run twin) :=
  .request (Request.twins_shared hTwins)

theorem runHeld
    {asked twin : Statement}
    {answer : asked.Answer → twin.Answer}
    (hTwins : asked.Twins shift twin answer) :
    Parallel shift answer (Program.runHeld asked)
      (Program.runHeld twin) :=
  .request (Request.twins_held hTwins)

/- Both transactions are committed or undone. -/
theorem transaction
    (hProgram : Parallel shift give program twin) :
    Parallel shift give (Program.transaction program)
      (Program.transaction twin) := by
  refine (Parallel.request Request.twins_begin).bind
    fun _ => ?_
  have hCommitting :
      Parallel shift give
        (do
          let found ← program
          Program.request .commit
          Pure.pure found)
        (do
          let found ← twin
          Program.request .commit
          Pure.pure found) :=
    hProgram.bind fun found =>
      (Parallel.request Request.twins_commit).bind
        fun _ => .pure give found
  exact hCommitting.attempt.bind fun outcome =>
    (Parallel.request Request.twins_release).bind
      fun _ => .done outcome

------------------------------------------------------------
-- Caches
------------------------------------------------------------

/- A call goes on with what it sees in the caches. -/
theorem caches
    {next next' : Caches → Program γ}
    {give : γ → γ}
    (hNext : ∀ caches,
      Parallel shift give (next caches)
        (next' (caches.shifted shift))) :
    Parallel shift give (Program.caches >>= next)
      (Program.caches >>= next') :=
  .cached (by intro _; rfl) hNext

theorem clearCaches :
    Parallel shift id Program.clearCaches
      Program.clearCaches :=
  .cached (by intro _; rfl) fun _ => .done (.ok ())

theorem keepTable (row : Table) :
    Parallel shift (Table.shifted shift)
      (Program.keepTable row)
      (Program.keepTable (row.shifted shift)) := by
  refine .cached (fun caches => ?_) fun caches => ?_
  · have hKept := caches.tables.keep_shifted id
      (Table.shifted shift) shift.tables
      Function.injective_id (fun _ => rfl) (fun _ => rfl) row
    simp only [Caches.shifted, hKept]
  · have hKept : (caches.shifted shift).tables.get?
        (row.shifted shift).name =
          (caches.tables.get? row.name).map
            (Table.shifted shift) :=
      Keeper.get?_shifted _ Function.injective_id row.name
    rw [hKept, Option.getD_map]
    exact .done (.ok _)

theorem keepAttribute (row : Attribute) :
    Parallel shift (Attribute.shifted shift)
      (Program.keepAttribute row)
      (Program.keepAttribute (row.shifted shift)) := by
  refine .cached (fun caches => ?_) fun caches => ?_
  · have hKept := caches.attributes.keep_shifted shift.key
      (Attribute.shifted shift) shift.attributes
      shift.key_injective (fun _ => rfl) (fun _ => rfl) row
    simp only [Caches.shifted, hKept]
  · have hKept : (caches.shifted shift).attributes.get?
        ((row.shifted shift).tableId,
          (row.shifted shift).name) =
          (caches.attributes.get?
            (row.tableId, row.name)).map
              (Attribute.shifted shift) :=
      Keeper.get?_shifted _ shift.key_injective
        (row.tableId, row.name)
    rw [hKept, Option.getD_map]
    exact .done (.ok _)

theorem keepValue (content : Scalar) (value : Int) :
    Parallel shift id (Program.keepValue content value)
      (Program.keepValue content (value + shift.values)) := by
  refine .cached (fun caches => ?_) fun _ => .done (.ok ())
  simp only [Caches.shifted, ValueKeeper.keep_shifted]

end Parallel

------------------------------------------------------------
-- From one state
------------------------------------------------------------

/-
  From some store on, a program ends as another one does from
  the shifted store.
-/
def Follows
    (shift : Shift)
    (give : α → β)
    (program : Program α)
    (twin : Program β)
    (shared : Shared) : Prop :=
  ∀ outcome after,
    program.advance shared = (.finished outcome, after) →
      twin.advance (shared.shifted shift) =
        (.finished (outcome.map give), after.shifted shift)

section Follows

variable {give : α → β} {give' : γ → δ}
variable {program : Program α} {twin : Program β}
variable {shared : Shared}

theorem Parallel.follows
    (hParallel : Parallel shift give program twin)
    (hCalm : shared.store.faults = .none) :
    Follows shift give program twin shared :=
  fun _ _ hEnd => hParallel.advance hEnd hCalm

/- A sequence goes on where its first part ends. -/
theorem Follows.bind
    {next : α → Program γ}
    {next' : β → Program δ}
    (hFirst : Follows shift give program twin shared)
    (hNext : ∀ found mid,
      program.advance shared = (.finished (.ok found), mid) →
        Follows shift give' (next found)
          (next' (give found)) mid) :
    Follows shift give' (program >>= next) (twin >>= next')
      shared := by
  intro last after hEnd
  rcases exists_of_advance_andThen hEnd with
    ⟨outcome, mid, hProgram, hLast⟩
  have hTwin := hFirst outcome mid hProgram
  refine (advance_andThen _ hTwin).trans ?_
  cases outcome with
  | error error =>
      cases hLast
      rfl
  | ok found => exact hNext found mid hProgram last after hLast

/- Programs that end in known ways. -/
theorem Ends.follows
    {clock : Clock}
    {engine later : Engine}
    {caches kept : Caches}
    {outcome : Except Error α}
    (hProgram : program.Ends clock engine caches outcome later
      kept)
    (hTwin : twin.Ends clock (engine.shifted shift)
      (caches.shifted shift) (outcome.map give)
      (later.shifted shift) (kept.shifted shift)) :
    Follows shift give program twin
      ⟨⟨engine, clock, .none⟩, caches⟩ := by
  have hNone : Faults.none.Within .none := by
    simp [Faults.Within, Faults.none]
  rcases hProgram .none hNone with ⟨faults, -, hEnd⟩
  rcases hTwin .none hNone with ⟨faults', -, hEnd'⟩
  have hCalm : faults = .none := calm_of_advance hEnd rfl
  have hCalm' : faults' = .none := calm_of_advance hEnd' rfl
  subst hCalm hCalm'
  intro outcome after hSame
  cases hEnd.symm.trans hSame
  exact hEnd'

end Follows

/-
  Whatever the caches hold that mirror the contents, a
  program ends as another one does on shifted contents.
-/
def Echoes
    (shift : Shift)
    (give : α → β)
    (clock : Clock)
    (contents : Contents)
    (program : Program α)
    (twin : Program β) : Prop :=
  ∀ caches, caches.Mirrors contents →
    program.Follows shift give twin
      ⟨⟨.ofContents contents, clock, .none⟩, caches⟩

section Echoes

variable {give : α → β} {give' : γ → δ}
variable {program : Program α} {twin : Program β}
variable {clock : Clock} {contents : Contents}

theorem Parallel.echoes
    (hParallel : Parallel shift give program twin) :
    program.Echoes shift give clock contents twin :=
  fun _ _ => hParallel.follows rfl

/- A sequence goes on with what its first part ensures. -/
theorem Echoes.bind
    {mid : Post α}
    {next : α → Program γ}
    {next' : β → Program δ}
    (hFirst : program.Echoes shift give clock contents twin)
    (hMid : ∀ caches, caches.Mirrors contents →
      program.Ensures (.free clock .none) contents caches mid)
    (hNext : ∀ found after caches, after.Sound →
      mid (.ok found) after caches →
        caches.Mirrors after ∧
          (next found).Echoes shift give' clock after
            (next' (give found))) :
    (program >>= next).Echoes shift give' clock contents
      (twin >>= next') := by
  intro caches hMirrors
  refine (hFirst caches hMirrors).bind
    fun found mid hEnd => ?_
  have hNone : Faults.none.Within .none := by
    simp [Faults.Within, Faults.none]
  rcases (hMid caches hMirrors .none hNone).advance with
    ⟨outcome, _, hAdvance, hIntact, after, kept, faults, rfl,
      -, hPost⟩
  have hCalm := calm_of_advance hEnd rfl
  cases hEnd.symm.trans hAdvance
  have hNoFaults : faults = .none := hCalm
  subst hNoFaults
  have hLater := hNext found after kept hIntact.1 hPost
  exact hLater.2 kept hLater.1

/- Calls that only read are sequenced. -/
theorem Echoes.reads_bind
    {right : Except Error α → Prop}
    {next : α → Program γ}
    {next' : β → Program δ}
    (hFirst : program.Echoes shift give clock contents twin)
    (hReads : ∀ caches, caches.Mirrors contents →
      program.Ensures (.free clock .none) contents caches
        (Reads (.free clock .none) contents right))
    (hNext : ∀ found, right (.ok found) →
      (next found).Echoes shift give' clock contents
        (next' (give found))) :
    (program >>= next).Echoes shift give' clock contents
      (twin >>= next') := by
  refine hFirst.bind hReads ?_
  rintro found _ caches -
    ⟨rfl, hMirrors, hRight | ⟨hTrouble, -⟩⟩
  · exact ⟨hMirrors, hNext found hRight⟩
  · exact absurd rfl hTrouble

/- A call goes on if a check accepts. -/
theorem Echoes.check
    {next : α → Program γ}
    {next' : α → Program δ}
    {check : Except Error α}
    (hNext : ∀ found, check = .ok found →
      (next found).Echoes shift give' clock contents
        (next' found)) :
    (done check >>= next).Echoes shift give' clock contents
      (done check >>= next') := by
  cases check with
  | ok found => exact hNext found rfl
  | error error => exact (Parallel.done (.error error)).echoes

/- A call goes on with the row that a search creates. -/
theorem Echoes.created
    {ρ : Type}
    {find : Contents → Option ρ}
    {row : ρ → α}
    {fresh : ρ → Prop}
    {check : Except Error Unit}
    {program : Program (Option α)}
    {twin : Program (Option β)}
    (hFirst : program.Echoes shift (Option.map give) clock
      contents twin)
    (hFinds : ∀ caches, caches.Mirrors contents →
      program.Ensures (.free clock .none) contents caches
        (Finds (.free clock .none) contents check find row
          .create fresh))
    (what : String)
    {next : α → Program γ}
    {next' : β → Program δ}
    (hNext : ∀ found after, after.Sound →
      contents.Grows after → check = .ok () →
        find after = some found →
          (next (row found)).Echoes shift give' clock after
            (next' (give (row found)))) :
    (program >>= fun found =>
      required what found >>= next).Echoes shift give' clock
        contents
        (twin >>= fun found =>
          required what found >>= next') := by
  refine hFirst.bind hFinds ?_
  rintro found after caches hSound
    ⟨hSought, hMirrors, hCheck, rfl, hNone⟩
  refine ⟨hMirrors, ?_⟩
  cases hFind : find after with
  | none => simp [hFind] at hNone
  | some found =>
      exact hNext found after hSound hSought.grows hCheck hFind

end Echoes

end Program

end SparseTables
