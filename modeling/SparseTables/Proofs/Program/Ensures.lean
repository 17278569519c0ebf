import SparseTables.Proofs.Program.Runs
import SparseTables.Proofs.Program.Trouble

/-
  This file gives rules for what programs ensure.

  A program is started on sound contents while nobody else
  uses the store.  It ensures a postcondition if it comes to
  an end whatever goes wrong within the bound, and its
  outcome, the contents and the caches satisfy the
  postcondition then.  All along the contents are sound, and
  no identity is given out twice.

  Main declarations:
    * `Setup`
    * `Program.Ensures`
    * `Program.Ensures.bind`
    * `Program.ensures_run`
    * `Program.ensures_transaction`
    * `Policy.ensures_run`
-/

namespace SparseTables

------------------------------------------------------------
-- Setups
------------------------------------------------------------

/-
  What surrounds a program: the clock, how calls may go
  wrong, and what an undo restores within a transaction.
-/
structure Setup where
  clock : Clock
  trouble : Trouble
  saved : Option Contents

namespace Setup

/- The store, held by the transaction if there is one. -/
def engine (setup : Setup) (contents : Contents) :
    Engine where
  contents
  hold := setup.saved.map fun saved => ⟨0, some saved⟩

/- The store and the caches that a program works with. -/
def shared
    (setup : Setup)
    (contents : Contents)
    (caches : Caches)
    (faults : Faults) : Shared where
  store := ⟨setup.engine contents, setup.clock, faults⟩
  caches

/- Outside of transactions. -/
def free (clock : Clock) (trouble : Trouble) : Setup :=
  ⟨clock, trouble, none⟩

/- Within a transaction. -/
def within (setup : Setup) (saved : Contents) : Setup :=
  { setup with saved := some saved }

end Setup

/- The contents are sound and have aged. -/
def Shared.Intact (start : Contents) (shared : Shared) :
    Prop :=
  shared.store.engine.contents.Sound ∧
    start.Ages shared.store.engine.contents

namespace Program

variable {α β : Type}

/- What a program makes of contents and caches. -/
abbrev Post (α : Type) : Type :=
  Except Error α → Contents → Caches → Prop

/- The postcondition for the store and the caches. -/
def Reaches
    (setup : Setup)
    (post : Post α)
    (outcome : Except Error α)
    (after : Shared) : Prop :=
  ∃ contents caches faults,
    after = setup.shared contents caches faults ∧
      faults.Within setup.trouble ∧
      post outcome contents caches

/-
  A program comes to an end, and its outcome satisfies the
  postcondition, whatever goes wrong within the bound.
-/
def Ensures
    (program : Program α)
    (setup : Setup)
    (contents : Contents)
    (caches : Caches)
    (post : Post α) : Prop :=
  ∀ faults : Faults, faults.Within setup.trouble →
    program.Runs (Shared.Intact contents)
      (Reaches setup post)
      (setup.shared contents caches faults)

------------------------------------------------------------
-- Sequences
------------------------------------------------------------

section Sequences

variable {setup : Setup}
variable {contents : Contents} {caches : Caches}

theorem ensures_done
    {post : Post α}
    {outcome : Except Error α}
    (hSound : contents.Sound)
    (hPost : post outcome contents caches) :
    (done outcome).Ensures setup contents caches post :=
  fun faults hFaults =>
    .done ⟨hSound, .refl _⟩
      ⟨contents, caches, faults, rfl, hFaults, hPost⟩

/-
  A program is sequenced with what comes after each of its
  outcomes.
-/
theorem Ensures.andThen
    {program : Program α}
    {next : Except Error α → Program β}
    {mid : Post α}
    {post : Post β}
    (hFirst : program.Ensures setup contents caches mid)
    (hNext : ∀ outcome after caches,
      after.Sound → contents.Ages after →
        mid outcome after caches →
          (next outcome).Ensures setup after caches post) :
    (program.andThen next).Ensures setup contents caches
      post := by
  intro faults hFaults
  apply (hFirst faults hFaults).andThen
  intro outcome _ hIntact hEnd
  rcases hEnd with
    ⟨middle, caches, faults, rfl, hFaults, hMid⟩
  have hLater := hNext outcome middle caches hIntact.1
    hIntact.2 hMid faults hFaults
  refine hLater.mono ?_ fun _ _ _ hPost => hPost
  intro after hAfter
  exact ⟨hAfter.1, hIntact.2.trans hAfter.2⟩

theorem Ensures.mono
    {program : Program α}
    {post post' : Post α}
    (hProgram : program.Ensures setup contents caches post)
    (hPost : ∀ outcome after caches,
      after.Sound → contents.Ages after →
        post outcome after caches →
          post' outcome after caches) :
    program.Ensures setup contents caches post' := by
  intro faults hFaults
  refine (hProgram faults hFaults).mono
    (fun _ hIntact => hIntact) ?_
  intro outcome _ hIntact hEnd
  rcases hEnd with
    ⟨after, caches, faults, rfl, hFaults, hHolds⟩
  exact ⟨after, caches, faults, rfl, hFaults,
    hPost outcome after caches hIntact.1 hIntact.2 hHolds⟩

/- An error ends a sequence. -/
theorem Ensures.bind
    {program : Program α}
    {next : α → Program β}
    {mid : Post α}
    {post : Post β}
    (hFirst : program.Ensures setup contents caches mid)
    (hOk : ∀ found after caches,
      after.Sound → contents.Ages after →
        mid (.ok found) after caches →
          (next found).Ensures setup after caches post)
    (hError : ∀ error after caches,
      after.Sound → contents.Ages after →
        mid (.error error) after caches →
          post (.error error) after caches) :
    (program >>= next).Ensures setup contents caches
      post := by
  apply Ensures.andThen hFirst
  intro outcome after caches hSound hAges hMid
  cases outcome with
  | ok found => exact hOk found after caches hSound hAges hMid
  | error error =>
      exact ensures_done hSound
        (hError error after caches hSound hAges hMid)

/- The outcome of an attempt is its result. -/
theorem Ensures.attempt
    {program : Program α}
    {post : Post (Except Error α)}
    (hProgram : program.Ensures setup contents caches
      fun outcome => post (.ok outcome)) :
    program.attempt.Ensures setup contents caches post :=
  hProgram.andThen fun _ _ _ hSound _ hPost =>
    ensures_done hSound hPost

theorem ensures_cached
    {update : Caches → Caches}
    {next : Caches → Program α}
    {post : Post α}
    (hSound : contents.Sound)
    (hNext : (next (update caches)).Ensures setup contents
      (update caches) post) :
    (cached update next).Ensures setup contents caches
      post :=
  fun faults hFaults =>
    .step ⟨hSound, .refl _⟩ rfl (hNext faults hFaults)

end Sequences

------------------------------------------------------------
-- Requests
------------------------------------------------------------

section Requests

variable {setup : Setup}
variable {contents : Contents} {caches : Caches}

/- A request meets a failure that is allowed, or none. -/
theorem meet_shared
    (setup : Setup)
    (contents : Contents)
    (caches : Caches)
    (request : Request)
    {faults : Faults}
    (hFaults : faults.Within setup.trouble) :
    ∃ failure faults',
      (setup.shared contents caches faults).store.meet
          request =
        (failure,
          (setup.shared contents caches faults').store) ∧
      (∀ met ∈ failure, met.Within setup.trouble) ∧
      faults'.Within setup.trouble := by
  unfold Store.meet
  split
  · exact ⟨none, faults, rfl, by simp, hFaults⟩
  · rename_i kind _
    rcases Faults.meet_within hFaults kind
      (request.text setup.clock) with ⟨hFailure, hLater⟩
    exact ⟨_, _, rfl, hFailure, hLater⟩

/-
  A request is refused, or the store does what it asks for;
  then the answer may be lost.
-/
theorem step_ask
    (setup : Setup)
    (contents : Contents)
    (caches : Caches)
    {request : Request}
    (next : Except Error request.Answer → Program α)
    {faults : Faults}
    (hFaults : faults.Within setup.trouble)
    (hFree : (setup.engine contents).blocks request =
      false) :
    ∃ faults' : Faults, faults'.Within setup.trouble ∧
      ((setup.trouble ≠ .none ∧ ∃ error,
        (ask request next).step?
            (setup.shared contents caches faults) =
          some (next (.error error),
            setup.shared contents caches faults')) ∨
      ∃ lost : Option Error,
        (lost ≠ none → setup.trouble = .any) ∧
        (ask request next).step?
            (setup.shared contents caches faults) =
          some (
            next ((setup.shared contents caches
              faults').store.perform request lost).1,
            ⟨((setup.shared contents caches
              faults').store.perform request lost).2,
              caches⟩)) := by
  rcases meet_shared setup contents caches request hFaults
    with ⟨failure, faults', hMeet, hFailure, hLater⟩
  have hBlocks :
      (setup.shared contents caches
        faults').store.engine.blocks request = false := hFree
  refine ⟨faults', hLater, ?_⟩
  rcases failure with _ | ⟨late, error⟩
  · refine Or.inr ⟨none, by simp, ?_⟩
    simp only [step?, hMeet, hBlocks]
    rfl
  · have hWithin := hFailure _ rfl
    cases late
    case false =>
      refine Or.inl ⟨?_, error, ?_⟩
      · intro hNone
        simp [hNone, Failure.Within] at hWithin
      · simp only [step?, hMeet]
        rfl
    case true =>
      refine Or.inr ⟨some error, fun _ => ?_, ?_⟩
      · cases hTrouble : setup.trouble <;>
          simp_all [Failure.Within]
      · simp only [step?, hMeet, hBlocks]
        rfl

/- A request is refused, or performed as it may be. -/
theorem step_performed
    {request : Request}
    {faults : Faults}
    {May : Except Error request.Answer → Contents → Prop}
    (hFree : (setup.engine contents).blocks request = false)
    (hFaults : faults.Within setup.trouble)
    (hRefused : setup.trouble ≠ .none →
      ∀ error, May (.error error) contents)
    (hPerform : ∀ (faults : Faults) {lost : Option Error},
      (lost ≠ none → setup.trouble = .any) →
        ∃ answer after,
          (setup.shared contents caches
              faults).store.perform request lost =
            (answer,
              (setup.shared after caches faults).store) ∧
          May answer after) :
    ∃ answer after faults',
      (ask request done).step?
          (setup.shared contents caches faults) =
        some (done answer,
          setup.shared after caches faults') ∧
      May answer after ∧ faults'.Within setup.trouble := by
  rcases step_ask setup contents caches done hFaults hFree
    with ⟨faults', hLater, ⟨hTrouble, error, hStep⟩ |
      ⟨lost, hLost, hStep⟩⟩
  · exact ⟨.error error, contents, faults', hStep,
      hRefused hTrouble error, hLater⟩
  · rcases hPerform faults' hLost with
      ⟨answer, after, hDone, hMay⟩
    rw [hDone] at hStep
    exact ⟨answer, after, faults', hStep, hMay, hLater⟩

/- A statement, within the transaction or outside. -/
def statement (held : Bool) (asked : Statement) :
    Program asked.Answer :=
  if held then runHeld asked else run asked

/- What a statement does, and what it may answer. -/
theorem perform_statement
    (setup : Setup)
    (contents : Contents)
    (caches : Caches)
    (asked : Statement)
    (faults : Faults)
    {lost : Option Error}
    (hLost : lost ≠ none → setup.trouble = .any) :
    ∃ answer after,
      (setup.shared contents caches faults).store.perform
          (.shared asked) lost =
        (answer, (setup.shared after caches faults).store) ∧
      (setup.shared contents caches faults).store.perform
          (.held asked) lost =
        (answer, (setup.shared after caches faults).store) ∧
      asked.May setup.trouble setup.clock contents answer
        after := by
  cases hRun : asked.run setup.clock contents with
  | error error =>
      refine ⟨.error error, contents, ?_, ?_, .failed hRun⟩ <;>
        cases lost <;>
        simp [Store.perform, Engine.perform, Engine.statement,
          Setup.shared, Setup.engine, hRun]
  | ok given =>
      rcases given with ⟨answer, after⟩
      cases lost with
      | none =>
          refine ⟨.ok answer, after, ?_, ?_,
            .answered hRun⟩ <;>
            simp [Store.perform, Engine.perform,
              Engine.statement, Setup.shared,
              Setup.engine, hRun]
      | some error =>
          refine ⟨.error error, after, ?_, ?_,
            .lost (hLost (by simp)) error hRun⟩ <;>
            simp [Store.perform, Engine.perform,
              Engine.statement, Setup.shared,
              Setup.engine, hRun]

/-
  A statement outside of transactions needs the free store;
  one of the transaction always comes through.
-/
theorem ensures_statement
    (held : Bool)
    (hFree : held = false → setup.saved = none)
    (hSound : contents.Sound)
    {asked : Statement}
    {post : Post asked.Answer}
    (hMay : ∀ answer after,
      asked.May setup.trouble setup.clock contents answer
          after →
        after.Sound ∧ post answer after caches) :
    (statement held asked).Ensures setup contents caches
      post := by
  intro faults hFaults
  have hStepped : ∃ answer after faults',
      (statement held asked).step?
          (setup.shared contents caches faults) =
        some (done answer,
          setup.shared after caches faults') ∧
      asked.May setup.trouble setup.clock contents answer
        after ∧
      faults'.Within setup.trouble := by
    cases held with
    | false =>
        have hOpen : (setup.engine contents).blocks
            (.shared asked) = false := by
          simp [Engine.blocks, Setup.engine, hFree]
        apply step_performed hOpen hFaults .refused
        intro faults lost hLost
        rcases perform_statement setup contents caches asked
          faults hLost with
          ⟨answer, after, hPerform, -, hHappens⟩
        exact ⟨answer, after, hPerform, hHappens⟩
    | true =>
        have hOpen : (setup.engine contents).blocks
            (.held asked) = false := rfl
        apply step_performed hOpen hFaults .refused
        intro faults lost hLost
        rcases perform_statement setup contents caches asked
          faults hLost with
          ⟨answer, after, -, hPerform, hHappens⟩
        exact ⟨answer, after, hPerform, hHappens⟩
  rcases hStepped with
    ⟨answer, after, faults', hStep, hHappens, hLater⟩
  have hAges : contents.Ages after := by
    rcases hHappens.after with rfl | ⟨_, hRun⟩
    · exact .refl _
    · exact Statement.run_ages hRun
  rcases hMay answer after hHappens with ⟨hAfter, hPost⟩
  exact .step ⟨hSound, .refl _⟩ hStep
    (.done ⟨hAfter, hAges⟩
      ⟨after, caches, faults', rfl, hLater, hPost⟩)

theorem ensures_run
    (hFree : setup.saved = none)
    (hSound : contents.Sound)
    {asked : Statement}
    {post : Post asked.Answer}
    (hMay : ∀ answer after,
      asked.May setup.trouble setup.clock contents answer
          after →
        after.Sound ∧ post answer after caches) :
    (run asked).Ensures setup contents caches post :=
  ensures_statement false (fun _ => hFree) hSound hMay

end Requests

------------------------------------------------------------
-- Transactions
------------------------------------------------------------

section Transactions

variable {setup : Setup}
variable {contents : Contents} {caches : Caches}

/- The store after a commit, still held. -/
def committed
    (setup : Setup)
    (contents : Contents)
    (caches : Caches)
    (faults : Faults) : Shared where
  store := ⟨⟨contents, some ⟨0, none⟩⟩, setup.clock, faults⟩
  caches

theorem runs_begin
    (hFree : setup.saved = none)
    (hSound : contents.Sound)
    {faults : Faults}
    (hFaults : faults.Within setup.trouble) :
    (request .begin).Runs (Shared.Intact contents)
      (fun outcome after =>
        ∃ faults' : Faults, faults'.Within setup.trouble ∧
          ((outcome = .ok () ∧ after =
            (setup.within contents).shared contents caches
              faults') ∨
          ∃ error, outcome = .error error ∧
            setup.trouble ≠ .none ∧
            after = setup.shared contents caches faults'))
      (setup.shared contents caches faults) := by
  have hIntact : Shared.Intact contents
      (setup.shared contents caches faults) :=
    ⟨hSound, .refl _⟩
  have hOpen :
      (setup.engine contents).blocks .begin = false := by
    simp [Engine.blocks, Setup.engine, hFree]
  rcases step_ask setup contents caches done hFaults hOpen
    with ⟨faults', hLater, ⟨hTrouble, error, hStep⟩ |
      ⟨lost, hLost, hStep⟩⟩
  · exact .step hIntact hStep (.done ⟨hSound, .refl _⟩
      ⟨faults', hLater, Or.inr ⟨error, rfl, hTrouble, rfl⟩⟩)
  · refine .step hIntact hStep (.done ?_ ⟨faults', hLater, ?_⟩)
    · cases lost <;> exact ⟨hSound, .refl _⟩
    · cases lost with
      | none => exact Or.inl ⟨rfl, rfl⟩
      | some error =>
          have hAny := hLost (by simp)
          refine Or.inr ⟨error, rfl, by simp [hAny], ?_⟩
          simp [Store.perform, Engine.perform, Engine.begin,
            Engine.release, Engine.committed, Setup.shared,
            Setup.engine, hFree]

theorem runs_commit
    (setup : Setup)
    {start saved : Contents}
    (hSound : contents.Sound)
    (hAges : start.Ages contents)
    {faults : Faults}
    (hFaults : faults.Within setup.trouble) :
    (request .commit).Runs (Shared.Intact start)
      (fun outcome after =>
        ∃ faults' : Faults, faults'.Within setup.trouble ∧
          ((outcome = .ok () ∧ after =
            committed setup contents caches faults') ∨
          ∃ error, outcome = .error error ∧
            ((setup.trouble ≠ .none ∧ after =
              (setup.within saved).shared contents caches
                faults') ∨
            (setup.trouble = .any ∧ after =
              committed setup contents caches faults'))))
      ((setup.within saved).shared contents caches
        faults) := by
  have hIntact : Shared.Intact start
      ((setup.within saved).shared contents caches
        faults) := ⟨hSound, hAges⟩
  have hOpen :
      ((setup.within saved).engine contents).blocks .commit =
        false := rfl
  rcases step_ask (setup.within saved) contents caches done
    hFaults hOpen with
    ⟨faults', hLater, ⟨hTrouble, error, hStep⟩ |
      ⟨lost, hLost, hStep⟩⟩
  · exact .step hIntact hStep (.done ⟨hSound, hAges⟩
      ⟨faults', hLater, Or.inr ⟨error, rfl,
        Or.inl ⟨hTrouble, rfl⟩⟩⟩)
  · refine .step hIntact hStep (.done ?_ ⟨faults', hLater, ?_⟩)
    · cases lost <;> exact ⟨hSound, hAges⟩
    · cases lost with
      | none => exact Or.inl ⟨rfl, rfl⟩
      | some error =>
          exact Or.inr ⟨error, rfl,
            Or.inr ⟨hLost (by simp), rfl⟩⟩

/- The end of a hold that was committed. -/
theorem runs_release_committed
    (hFree : setup.saved = none)
    (hSound : contents.Sound)
    {start : Contents}
    (hAges : start.Ages contents)
    (faults : Faults) :
    (request .release).Runs (Shared.Intact start)
      (fun outcome after => outcome = .ok () ∧
        after = setup.shared contents caches faults)
      (committed setup contents caches faults) := by
  refine .step ⟨hSound, hAges⟩ rfl
    (.done ⟨hSound, hAges⟩ ⟨rfl, ?_⟩)
  simp [Engine.release, Engine.committed, Setup.shared,
    Setup.engine, hFree, committed]

/- The end of a hold that was not committed. -/
theorem runs_release_undone
    (hFree : setup.saved = none)
    {after : Contents}
    (hSound : contents.Sound)
    (hAfter : after.Sound)
    (hAges : contents.Ages after)
    (faults : Faults) :
    (request .release).Runs (Shared.Intact contents)
      (fun outcome final => outcome = .ok () ∧
        final = setup.shared contents caches faults)
      ((setup.within contents).shared after caches
        faults) := by
  refine .step ⟨hAfter, hAges⟩ rfl
    (.done ⟨hSound, .refl _⟩ ⟨rfl, ?_⟩)
  simp [Engine.release, Engine.committed, Setup.shared,
    Setup.engine, hFree, Setup.within]

/-
  Before the release: the hold was committed or not, and the
  postcondition speaks of the contents that the release will
  leave.
-/
def Ending
    (setup : Setup)
    (start : Contents)
    (post : Post α)
    (result : Except Error α)
    (held : Shared) : Prop :=
  ∃ after caches, ∃ faults : Faults,
    faults.Within setup.trouble ∧
      after.Sound ∧ start.Ages after ∧
      ((held = (setup.within start).shared after caches
          faults ∧ post result start caches) ∨
        (held = committed setup after caches faults ∧
          post result after caches))

/- A body and the commit behind it. -/
theorem runs_committing
    {body : Program α}
    {mid post : Post α}
    (hBody : body.Ensures (setup.within contents) contents
      caches mid)
    (hFailed : ∀ error after caches,
      mid (.error error) after caches →
        post (.error error) contents caches)
    (hUndone : setup.trouble ≠ .none →
      ∀ found error after caches,
        mid (.ok found) after caches →
          post (.error error) contents caches)
    (hLost : setup.trouble = .any →
      ∀ found error after caches,
        mid (.ok found) after caches →
          post (.error error) after caches)
    (hDone : ∀ found after caches,
      after.Sound → contents.Ages after →
        mid (.ok found) after caches →
          post (.ok found) after caches)
    {faults : Faults}
    (hFaults : faults.Within setup.trouble) :
    (body >>= fun found =>
        request .commit >>= fun _ =>
          (pure found : Program α)).Runs
      (Shared.Intact contents) (Ending setup contents post)
      ((setup.within contents).shared contents caches
        faults) := by
  apply Runs.andThen (hBody faults hFaults)
  intro outcome _ hIntact hEnd
  rcases hEnd with ⟨after, caches, faults, rfl, hFaults, hMid⟩
  cases outcome with
  | error error =>
      exact .done hIntact ⟨after, caches, faults, hFaults,
        hIntact.1, hIntact.2,
        Or.inl ⟨rfl, hFailed error after caches hMid⟩⟩
  | ok found =>
      apply (runs_commit setup hIntact.1
        hIntact.2 hFaults).andThen
      intro outcome _ hIntact' hEnd
      rcases hEnd with
        ⟨faults, hFaults, ⟨rfl, rfl⟩ | ⟨error, rfl, ⟨hTrouble,
          rfl⟩ | ⟨hAny, rfl⟩⟩⟩
      · exact .done hIntact' ⟨after, caches, faults, hFaults,
          hIntact.1, hIntact.2, Or.inr ⟨rfl,
            hDone found after caches hIntact.1 hIntact.2
              hMid⟩⟩
      · exact .done hIntact' ⟨after, caches, faults, hFaults,
          hIntact.1, hIntact.2, Or.inl ⟨rfl,
            hUndone hTrouble found error after caches hMid⟩⟩
      · exact .done hIntact' ⟨after, caches, faults, hFaults,
          hIntact.1, hIntact.2, Or.inr ⟨rfl,
            hLost hAny found error after caches hMid⟩⟩

/-
  A transaction leaves what its body made of the contents, or
  the contents as they were.  It leaves the former if it
  succeeds, or if the answer of the commit is lost.
-/
theorem ensures_transaction
    {body : Program α}
    {mid post : Post α}
    (hFree : setup.saved = none)
    (hSound : contents.Sound)
    (hBody : body.Ensures (setup.within contents) contents
      caches mid)
    (hRefused : setup.trouble ≠ .none →
      ∀ error, post (.error error) contents caches)
    (hFailed : ∀ error after caches,
      mid (.error error) after caches →
        post (.error error) contents caches)
    (hUndone : setup.trouble ≠ .none →
      ∀ found error after caches,
        mid (.ok found) after caches →
          post (.error error) contents caches)
    (hLost : setup.trouble = .any →
      ∀ found error after caches,
        mid (.ok found) after caches →
          post (.error error) after caches)
    (hDone : ∀ found after caches,
      after.Sound → contents.Ages after →
        mid (.ok found) after caches →
          post (.ok found) after caches) :
    (transaction body).Ensures setup contents caches
      post := by
  intro faults hFaults
  apply (runs_begin hFree hSound hFaults).andThen
  intro outcome _ _ hEnd
  rcases hEnd with
    ⟨faults, hFaults, ⟨rfl, rfl⟩ | ⟨error, rfl, hTrouble,
      rfl⟩⟩
  case inr =>
    exact .done ⟨hSound, .refl _⟩ ⟨contents, caches, faults,
      rfl, hFaults, hRefused hTrouble error⟩
  have hBodyRuns := runs_committing hBody hFailed hUndone
    hLost hDone hFaults
  have hAttempt :
      (Program.attempt (body >>= fun found =>
        request .commit >>= fun _ =>
          (pure found : Program α))).Runs
        (Shared.Intact contents)
        (fun outcome held => ∃ result,
          outcome = .ok result ∧
            Ending setup contents post result held)
        ((setup.within contents).shared contents caches
          faults) :=
    hBodyRuns.andThen fun result held hIntact hEnding =>
      .done hIntact ⟨result, rfl, hEnding⟩
  apply hAttempt.andThen
  intro _ _ _ hEnd
  rcases hEnd with
    ⟨result, rfl, after, caches, faults, hFaults, hAfter,
      hAges, ⟨rfl, hPost⟩ | ⟨rfl, hPost⟩⟩
  · apply (runs_release_undone hFree hSound hAfter hAges
      faults).andThen
    intro _ _ hIntact hEnd
    rcases hEnd with ⟨rfl, rfl⟩
    exact .done hIntact ⟨contents, caches, faults, rfl,
      hFaults, hPost⟩
  · apply (runs_release_committed hFree hAfter hAges
      faults).andThen
    intro _ _ hIntact hEnd
    rcases hEnd with ⟨rfl, rfl⟩
    exact .done hIntact ⟨after, caches, faults, rfl, hFaults,
      hPost⟩

end Transactions

end Program

------------------------------------------------------------
-- Attempts
------------------------------------------------------------

namespace Policy

variable {α : Type} {setup : Setup}

/-
  What each attempt ensures, all attempts ensure: failed ones
  keep an invariant, and the last one's error is wrapped.
-/
theorem ensures_runFrom
    {action : Program α}
    {inv : Contents → Caches → Prop}
    {post : Program.Post α}
    (label : String)
    (attempts : Nat)
    (hAction : ∀ contents caches,
      contents.Sound → inv contents caches →
        action.Ensures setup contents caches
          fun outcome after caches =>
            match outcome with
            | .ok found => post (.ok found) after caches
            | .error _ => inv after caches ∧
                ∀ error, post (.error error) after caches)
    (further : Nat)
    {contents : Contents}
    {caches : Caches}
    (hSound : contents.Sound)
    (hInv : inv contents caches) :
    (runFrom label attempts action further).Ensures setup
      contents caches post := by
  induction further generalizing contents caches with
  | zero =>
      apply (hAction contents caches hSound hInv).andThen
      intro outcome after caches hSound _ hMid
      cases outcome with
      | ok found => exact Program.ensures_done hSound hMid
      | error error =>
          simp only
          split <;>
            exact Program.ensures_done hSound (hMid.2 _)
  | succ further ih =>
      apply (hAction contents caches hSound hInv).andThen
      intro outcome after caches hSound _ hMid
      cases outcome with
      | ok found => exact Program.ensures_done hSound hMid
      | error error =>
          simp only
          split
          · exact ih hSound hMid.1
          · exact Program.ensures_done hSound (hMid.2 _)

theorem ensures_run
    {action : Program α}
    {post : Program.Post α}
    (policy : Policy)
    (label : String)
    (inv : Contents → Caches → Prop)
    (hAction : ∀ contents caches,
      contents.Sound → inv contents caches →
        action.Ensures setup contents caches
          fun outcome after caches =>
            match outcome with
            | .ok found => post (.ok found) after caches
            | .error _ => inv after caches ∧
                ∀ error, post (.error error) after caches)
    {contents : Contents}
    {caches : Caches}
    (hSound : contents.Sound)
    (hInv : inv contents caches) :
    (policy.run label action).Ensures setup contents caches
      post :=
  ensures_runFrom label policy.attempts hAction _ hSound hInv

end Policy

end SparseTables
