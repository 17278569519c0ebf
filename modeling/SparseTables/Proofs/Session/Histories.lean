import Mathlib.Logic.Relation
import SparseTables.Proofs.Program.Durable
import SparseTables.Proofs.Session.Defining
import SparseTables.Proofs.Session.Querying
import SparseTables.Proofs.Session.Removing

/-
  This file defines what can happen to a store in the course
  of time, and what holds at every moment.

  A session makes one call after another.  Between calls the
  clock may be set, failures may be planned, and a new
  session may take over with empty caches.  A moment is
  reached by a request to the store or a use of the caches.

  Main declarations:
    * `Session.Call`
    * `Session.Moment`
    * `Session.Moves`
    * `Session.Leads`
    * `Session.Reachable`
    * `Session.Moment.Good`
    * `Session.Reachable.atRest`
    * `Session.Call.ensures`
    * `Session.Moment.sound_and_aged`
-/

namespace SparseTables

namespace Session

------------------------------------------------------------
-- Calls
------------------------------------------------------------

/- The calls of a session. -/
inductive Call where
  | define (request : Define)
  | createTable (name : String) (numeric : Bool)
  | delete (name : String) (keys : List Scalar)
  | dropTable (name : String)
  | reset (dictionaries : Bool)
  -- calls that only read
  | get (request : GetRequest)
  | queryGet (query : Select)
  | item (id : Int)
  | summarize (id : Int)
  | schema (table : Option String)
  -- queries
  | compile (query : Select)
  | select (query : Select)
  | scalar (query : Select)
  | integer (query : Select)
  | list (query : Select)
  | pairs (query : Select)
  | rowId (table : String) (key : Scalar)
  | rowValue (table : String) (id : Int)

namespace Call

/- What a call gives. -/
abbrev Answer : Call → Type
  | define _ => Int
  | createTable _ _ | delete _ _ | dropTable _ => Unit
  | reset _ => Unit
  | get _ | queryGet _ => GetResponse
  | item _ => Option Item
  | summarize _ => String
  | schema _ => SchemaResponse
  | compile _ => Plan × Params
  | select _ => ResultSet
  | scalar _ | rowValue _ _ => Option Scalar
  | integer _ | rowId _ _ => Option Int
  | list _ => List (Option Scalar)
  | pairs _ => List (Option Scalar × Option Scalar)

/- The program of a call. -/
def program (policies : Policies) :
    (call : Call) → Program call.Answer
  | define request => Session.define policies request
  | createTable name numeric =>
      Session.createTable policies name numeric
  | delete name keys => Session.delete policies name keys
  | dropTable name => Session.dropTable policies name
  | reset dictionaries => Session.reset dictionaries
  | get request => Session.get policies request
  | queryGet query => Session.queryGet policies query
  | item id => Items.byId id
  | summarize id => Session.summarize id
  | schema table => Session.schema table
  | compile query => Session.compile policies query
  | select query => Session.select policies query
  | scalar query => Session.scalar policies query
  | integer query => Session.integer policies query
  | list query => Session.list policies query
  | pairs query => Session.pairs policies query
  | rowId table key => Session.rowId policies table key
  | rowValue table id => Session.rowValue policies table id

/- All calls leave caches that mirror the contents. -/
theorem ensures
    {setup : Setup}
    {contents : Contents}
    {caches : Caches}
    (hFree : setup.saved = none)
    (hSound : contents.Sound)
    (hMirrors : caches.Mirrors contents)
    (policies : Policies)
    (call : Call) :
    (call.program policies).Ensures setup contents caches
      fun _ after caches => caches.Mirrors after := by
  have hReads
      {α : Type}
      {program : Program α}
      {right : Except Error α → Prop}
      (hProgram : program.Ensures setup contents caches
        (Program.Reads setup contents right)) :
      program.Ensures setup contents caches
        fun _ after caches => caches.Mirrors after :=
    hProgram.mono fun _ _ _ _ _ ⟨hAfter, hMirrors, _⟩ =>
      hAfter ▸ hMirrors
  cases call with
  | define request =>
      exact (ensures_define hFree hSound hMirrors policies
        request).mono fun _ _ _ _ _ hPost => hPost.1
  | createTable name numeric =>
      exact (ensures_createTable hFree hSound hMirrors
        policies name numeric).mono
          fun _ _ _ _ _ hPost => hPost.2
  | delete name keys =>
      exact ensures_delete hFree hSound hMirrors policies name
        keys
  | dropTable name =>
      exact ensures_dropTable hFree hSound policies name
  | reset dictionaries =>
      exact ensures_reset hFree hSound dictionaries
  | get request =>
      exact hReads (ensures_get hFree hSound hMirrors policies
        request)
  | queryGet query =>
      exact hReads (ensures_queryGet hFree hSound hMirrors
        policies query)
  | item id =>
      exact hReads (Items.ensures_byId hFree hSound hMirrors
        id)
  | summarize id =>
      exact hReads (ensures_summarize hFree hSound hMirrors id)
  | schema table =>
      exact hReads (ensures_schema hFree hSound hMirrors table)
  | compile query =>
      exact hReads (ensures_compile hFree hSound hMirrors
        policies query)
  | select query =>
      exact hReads (ensures_select hFree hSound hMirrors
        policies query)
  | scalar query =>
      exact hReads (ensures_scalar hFree hSound hMirrors
        policies query)
  | integer query =>
      exact hReads (ensures_integer hFree hSound hMirrors
        policies query)
  | list query =>
      exact hReads (ensures_list hFree hSound hMirrors
        policies query)
  | pairs query =>
      exact hReads (ensures_pairs hFree hSound hMirrors
        policies query)
  | rowId table key =>
      exact hReads (ensures_rowId hFree hSound hMirrors
        policies table key)
  | rowValue table id =>
      exact hReads (ensures_rowValue hFree hSound hMirrors
        policies table id)

end Call

------------------------------------------------------------
-- Moments
------------------------------------------------------------

/- What is left to do of a call. -/
structure Going where
  call : Call
  rest : Program call.Answer

/- The store and the caches, between calls or within one. -/
structure Moment where
  shared : Shared
  going : Option Going

namespace Moment

/- A new store with a new session. -/
def new : Moment where
  shared := ⟨.new, .empty⟩
  going := none

/- The contents of the store. -/
def contents (moment : Moment) : Contents :=
  moment.shared.store.engine.contents

/- The contents if what is not committed was undone. -/
def committed (moment : Moment) : Contents :=
  moment.shared.store.engine.committed

end Moment

/- The store with other failures planned. -/
def withFaults (shared : Shared) (faults : Faults) : Shared :=
  { shared with store := { shared.store with faults } }

/- The store at another time of its clock. -/
def withClock (shared : Shared) (clock : Clock) : Shared :=
  { shared with store := { shared.store with clock } }

/-
  What comes next: a call begins, goes on by a step, or ends.
  Between calls the clock is set, failures are planned, or a
  new session takes over.
-/
inductive Moves : Moment → Moment → Prop where
  | start
      (policies : Policies)
      (call : Call)
      (shared : Shared) :
      Moves ⟨shared, none⟩
        ⟨shared, some ⟨call, call.program policies⟩⟩
  | step
      {call : Call}
      {rest later : Program call.Answer}
      {shared after : Shared}
      (hStep : rest.step? shared = some (later, after)) :
      Moves ⟨shared, some ⟨call, rest⟩⟩
        ⟨after, some ⟨call, later⟩⟩
  | finish
      (call : Call)
      (outcome : Except Error call.Answer)
      (shared : Shared) :
      Moves ⟨shared, some ⟨call, .done outcome⟩⟩
        ⟨shared, none⟩
  | setClock
      (clock : Clock)
      (shared : Shared) :
      Moves ⟨shared, none⟩ ⟨withClock shared clock, none⟩
  | setFaults
      (faults : Faults)
      (shared : Shared) :
      Moves ⟨shared, none⟩ ⟨withFaults shared faults, none⟩
  | renew
      (shared : Shared) :
      Moves ⟨shared, none⟩
        ⟨{ shared with caches := .empty }, none⟩

/- One moment after another. -/
def Leads : Moment → Moment → Prop :=
  Relation.ReflTransGen Moves

/- The moments between the calls of some history. -/
def Reachable (shared : Shared) : Prop :=
  Leads .new ⟨shared, none⟩

------------------------------------------------------------
-- What holds at every moment
------------------------------------------------------------

/-
  Between calls: nothing is going on in the store, and the
  caches mirror its contents, which are sound.
-/
structure AtRest (shared : Shared) : Prop where
  free : shared.store.engine.hold = none
  sound : shared.store.engine.contents.Sound
  mirrors :
    shared.caches.Mirrors shared.store.engine.contents

/- Within a call, it will come to an end at rest. -/
def Moment.Good (moment : Moment) : Prop :=
  match moment.going with
  | none => AtRest moment.shared
  | some going => ∃ start : Contents,
      going.rest.Runs (Shared.Intact start)
        (fun _ after => AtRest after) moment.shared

/- The setup between calls. -/
theorem AtRest.eq_shared
    {shared : Shared}
    (hRest : AtRest shared)
    (trouble : Trouble) :
    shared =
      (Setup.free shared.store.clock trouble).shared
        shared.store.engine.contents shared.caches
        shared.store.faults := by
  rcases shared with
    ⟨⟨⟨contents, hold⟩, clock, faults⟩, caches⟩
  have hHold : hold = none := hRest.free
  subst hHold
  rfl

/- A call that is made at rest ends at rest. -/
theorem AtRest.runs
    {shared : Shared}
    (hRest : AtRest shared)
    (policies : Policies)
    (call : Call) :
    (call.program policies).Runs
      (Shared.Intact shared.store.engine.contents)
      (fun _ after => AtRest after) shared := by
  have hRuns := call.ensures
    (show (Setup.free shared.store.clock .any).saved = none
      from rfl)
    hRest.sound hRest.mirrors policies shared.store.faults
    (fun _ _ => trivial)
  rw [← hRest.eq_shared] at hRuns
  refine hRuns.mono (fun _ hIntact => hIntact) ?_
  intro outcome _ hIntact hEnd
  rcases hEnd with
    ⟨contents, caches, faults, rfl, -, hMirrors⟩
  exact ⟨rfl, hIntact.1, hMirrors⟩

namespace Moment

theorem good_new : Moment.new.Good :=
  ⟨rfl, Contents.Sound.empty, .empty _⟩

/- The contents are sound at every moment. -/
theorem Good.sound
    {moment : Moment}
    (hGood : moment.Good) :
    moment.contents.Sound := by
  rcases moment with ⟨shared, _ | ⟨call, rest⟩⟩
  · exact AtRest.sound hGood
  · rcases hGood with ⟨start, hRuns⟩
    exact (hRuns.visits (.here rest shared)).1

/- What comes next keeps the moments good. -/
theorem Good.moves
    {moment next : Moment}
    (hGood : moment.Good)
    (hMoves : Moves moment next) :
    next.Good := by
  cases hMoves with
  | start policies call shared =>
      exact ⟨_, AtRest.runs hGood policies call⟩
  | step hStep =>
      rcases hGood with ⟨start, hRuns⟩
      rcases hRuns.done_or_step with ⟨outcome, hDone, -⟩ |
        ⟨later, after, hSame, hLater⟩
      · dsimp only at hDone
        rw [hDone] at hStep
        simp [Program.step?] at hStep
      · rw [hStep] at hSame
        cases hSame
        exact ⟨start, hLater⟩
  | finish call outcome shared =>
      rcases hGood with ⟨start, hRuns⟩
      rcases hRuns.done_or_step with ⟨_, -, hRest⟩ |
        ⟨_, _, hStep, -⟩
      · exact hRest
      · simp [Program.step?] at hStep
  | setClock clock shared => exact { hGood with }
  | setFaults faults shared => exact { hGood with }
  | renew shared =>
      have hRest : AtRest shared := hGood
      exact ⟨hRest.free, hRest.sound, .empty _⟩

theorem Good.leads
    {moment later : Moment}
    (hGood : moment.Good)
    (hLeads : Leads moment later) :
    later.Good := by
  induction hLeads with
  | refl => exact hGood
  | tail _ hMoves ih => exact ih.moves hMoves

/- No call ever waits: there is a next moment or an end. -/
theorem Good.progress
    {shared : Shared}
    {going : Going}
    (hGood : Moment.Good ⟨shared, some going⟩) :
    (∃ outcome, going.rest = .done outcome) ∨
      ∃ later after, going.rest.step? shared =
        some (later, after) := by
  rcases going with ⟨call, rest⟩
  rcases hGood with ⟨start, hRuns⟩
  rcases hRuns.done_or_step with ⟨outcome, hDone, -⟩ |
    ⟨later, after, hStep, -⟩
  · exact Or.inl ⟨outcome, hDone⟩
  · exact Or.inr ⟨later, after, hStep⟩

/- What is committed ages from moment to moment. -/
theorem moves_advances
    {moment next : Moment}
    (hSteady : moment.shared.store.engine.Steady)
    (hMoves : Moves moment next) :
    moment.shared.store.engine.Advances
      next.shared.store.engine := by
  cases hMoves with
  | step hStep => exact Program.step_advances hSteady hStep
  | _ => exact .refl hSteady

theorem leads_advances
    {moment later : Moment}
    (hSteady : moment.shared.store.engine.Steady)
    (hLeads : Leads moment later) :
    moment.shared.store.engine.Advances
      later.shared.store.engine := by
  induction hLeads with
  | refl => exact .refl hSteady
  | tail _ hMoves ih =>
      exact ih.trans (moves_advances ih.1 hMoves)

end Moment

------------------------------------------------------------
-- Calls as a whole
------------------------------------------------------------

/- Everything that is reached between calls is at rest. -/
theorem Reachable.atRest
    {shared : Shared}
    (hReachable : Reachable shared) :
    AtRest shared :=
  Moment.good_new.leads hReachable

/-
  A call that runs to its end leads there, by moves of some
  kind if its steps are such moves and so is its end.
-/
theorem chain_of_runs
    {inv : Shared → Prop}
    (such : Shared → Prop)
    {kind : Moment → Moment → Prop}
    {call : Call}
    (hFinish : ∀ outcome shared, such shared →
      kind ⟨shared, some ⟨call, .done outcome⟩⟩
        ⟨shared, none⟩)
    (hMoves : ∀ {rest later : Program call.Answer}
      {shared after : Shared}, such shared →
      rest.step? shared = some (later, after) →
        such after ∧
          kind ⟨shared, some ⟨call, rest⟩⟩
            ⟨after, some ⟨call, later⟩⟩)
    {post : Except Error call.Answer → Shared → Prop}
    {program : Program call.Answer}
    {shared : Shared}
    (hSuch : such shared)
    (hRuns : program.Runs inv post shared) :
    Relation.ReflTransGen kind
      ⟨shared, some ⟨call, program⟩⟩
      ⟨(program.advance shared).2, none⟩ := by
  induction hRuns with
  | done _ _ => exact .single (hFinish _ _ hSuch)
  | step _ hStep _ ih =>
      rcases hMoves hSuch hStep with ⟨hAfter, hMove⟩
      rw [Program.advance_of_step hStep]
      exact .head hMove (ih hAfter)

theorem leads_of_runs
    {inv : Shared → Prop}
    {call : Call}
    {post : Except Error call.Answer → Shared → Prop}
    {program : Program call.Answer}
    {shared : Shared}
    (hRuns : program.Runs inv post shared) :
    Leads ⟨shared, some ⟨call, program⟩⟩
      ⟨(program.advance shared).2, none⟩ :=
  chain_of_runs (fun _ => True)
    (fun outcome shared _ => .finish call outcome shared)
    (fun _ hStep => ⟨trivial, .step hStep⟩) trivial hRuns

/- A call leads from what is reached to what is reached. -/
theorem Reachable.after_call
    {shared : Shared}
    (hReachable : Reachable shared)
    (policies : Policies)
    (call : Call) :
    Reachable ((call.program policies).advance shared).2 :=
  (hReachable.tail (.start policies call shared)).trans
    (leads_of_runs (hReachable.atRest.runs policies call))

/-
  What a program ensures it does: it comes to an end, at rest
  if the caches mirror the contents then.
-/
theorem AtRest.advance
    {α : Type}
    {shared : Shared}
    (hRest : AtRest shared)
    (trouble : Trouble)
    (hFaults : shared.store.faults.Within trouble)
    {program : Program α}
    {post : Program.Post α}
    (hEnsures : program.Ensures
      (.free shared.store.clock trouble)
      shared.store.engine.contents shared.caches post) :
    ∃ outcome after,
      program.advance shared = (.finished outcome, after) ∧
        after.store.engine.hold = none ∧
        after.store.engine.contents.Sound ∧
        post outcome after.store.engine.contents
          after.caches := by
  have hRuns := hEnsures shared.store.faults hFaults
  rw [← hRest.eq_shared] at hRuns
  rcases hRuns.advance with
    ⟨outcome, _, hAdvance, hIntact, contents, caches, faults,
      rfl, -, hPost⟩
  exact ⟨outcome, _, hAdvance, rfl, hIntact.1, hPost⟩

------------------------------------------------------------
-- All moments
------------------------------------------------------------

/-
  At every moment the contents are sound.  From moment to
  moment no identity is given out twice: under one that was
  given out before there is the row that it was given to, or
  none, and none comes back.
-/
theorem Moment.sound_and_aged
    {earlier later : Moment}
    (hEarlier : Leads .new earlier)
    (hLater : Leads earlier later) :
    later.contents.Sound ∧
      earlier.committed.Ages later.committed := by
  have hGood := Moment.good_new.leads
    (hEarlier.trans hLater)
  have hSteady := (Moment.leads_advances
    (Engine.steady_of_free .empty) hEarlier).1
  exact ⟨hGood.sound,
    (Moment.leads_advances hSteady hLater).2⟩

/- A table is created in a new store. -/
theorem Moment.sound_and_aged_first :
    ∃ later : Moment,
      later.contents.tables.rows = [⟨1, "t", false⟩] ∧
        later.contents.Sound ∧
        Contents.empty.Ages later.committed := by
  have hReachable : Reachable
      ((createTable default "t" false).advance
        Moment.new.shared).2 :=
    Reachable.after_call .refl default (.createTable "t" false)
  exact ⟨_, by decide +kernel,
    Moment.sound_and_aged .refl hReachable⟩

end Session

end SparseTables
