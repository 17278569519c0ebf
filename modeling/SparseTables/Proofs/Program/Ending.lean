import SparseTables.Proofs.Program.Settled
import SparseTables.Proofs.Tasks.Calls

/-
  This file shows that programs come to an end on a store
  that does not fail, and what they keep.

  A program is bound to some statements if it makes no others
  and leaves no transaction open.  Whatever the caches hold,
  it ends, and what all of these statements keep, it keeps.

  Main declarations:
    * `Program.Ends`
    * `Program.Ends.andThen`
    * `Program.ends_transaction`
    * `Program.Asks`
    * `Program.BoundTo`
    * `Program.BoundTo.ends`
    * `Program.Asks.ends_blind`
    * `Program.BoundTo.keeps`
-/

namespace SparseTables

namespace Program

variable {α β : Type}

------------------------------------------------------------
-- Ends
------------------------------------------------------------

/- A sequence goes on where its first part finishes. -/
theorem advance_andThen
    {program : Program α}
    (next : Except Error α → Program β)
    {outcome : Except Error α}
    {shared ending : Shared}
    (hEnd : program.advance shared =
      (.finished outcome, ending)) :
    (program.andThen next).advance shared =
      (next outcome).advance ending := by
  induction program generalizing shared with
  | done given =>
      cases hEnd
      rfl
  | cached update later ih => exact ih _ hEnd
  | ask request later ih =>
      simp only [advance, andThen] at hEnd ⊢
      split at hEnd
      · exact ih _ hEnd
      · split at hEnd
        · cases hEnd
        · rename_i hFree
          rw [if_neg hFree]
          exact ih _ hEnd

/- So a program ends, while the store does not fail. -/
def Ends
    (clock : Clock)
    (engine : Engine)
    (caches : Caches)
    (program : Program α)
    (outcome : Except Error α)
    (after : Engine)
    (kept : Caches) : Prop :=
  ∀ faults : Faults, faults.Within .none →
    ∃ later : Faults, later.Within .none ∧
      program.advance ⟨⟨engine, clock, faults⟩, caches⟩ =
        (.finished outcome, ⟨⟨after, clock, later⟩, kept⟩)

variable {clock : Clock} {engine after : Engine}
variable {caches kept : Caches}

theorem ends_done (outcome : Except Error α) :
    (done outcome).Ends clock engine caches outcome engine
      caches :=
  fun faults hCalm => ⟨faults, hCalm, rfl⟩

theorem ends_check
    {check outcome : Except Error α}
    (hCheck : check = outcome) :
    (done check).Ends clock engine caches outcome engine
      caches :=
  hCheck ▸ ends_done check

theorem ends_cached
    {outcome : Except Error α}
    {update : Caches → Caches}
    {next : Caches → Program α}
    (hNext : (next (update caches)).Ends clock engine
      (update caches) outcome after kept) :
    (cached update next).Ends clock engine caches outcome
      after kept :=
  hNext

/- A request is answered by the store. -/
theorem ends_ask
    {outcome : Except Error α}
    {request : Request}
    {next : Except Error request.Answer → Program α}
    (hFree : engine.blocks request = false)
    (hNext : (next (engine.perform clock request).1).Ends
      clock (engine.perform clock request).2 caches outcome
      after kept) :
    (ask request next).Ends clock engine caches outcome after
      kept := by
  intro faults hCalm
  rcases @meet_calm ⟨engine, clock, faults⟩ hCalm request
    with ⟨met, hMet, hMeet⟩
  rcases hNext met hMet with ⟨later, hLater, hAdvance⟩
  refine ⟨later, hLater, ?_⟩
  simp only [advance, hMeet, hFree]
  exact hAdvance

namespace Ends

/- A sequence goes on where its first part ends. -/
theorem andThen
    {program : Program α}
    {next : Except Error α → Program β}
    {outcome : Except Error α}
    {last : Except Error β}
    {final : Engine}
    {remaining : Caches}
    (hFirst : program.Ends clock engine caches outcome after
      kept)
    (hNext : (next outcome).Ends clock after kept last final
      remaining) :
    (program.andThen next).Ends clock engine caches last final
      remaining := by
  intro faults hCalm
  rcases hFirst faults hCalm with ⟨met, hMet, hEnd⟩
  rcases hNext met hMet with ⟨later, hLater, hLast⟩
  exact ⟨later, hLater,
    (advance_andThen next hEnd).trans hLast⟩

theorem bind
    {program : Program α}
    {next : α → Program β}
    {given : α}
    {last : Except Error β}
    {final : Engine}
    {remaining : Caches}
    (hFirst : program.Ends clock engine caches (.ok given)
      after kept)
    (hNext : (next given).Ends clock after kept last final
      remaining) :
    (program >>= next).Ends clock engine caches last final
      remaining :=
  hFirst.andThen hNext

/- An error ends a sequence. -/
theorem bind_error
    {program : Program α}
    {next : α → Program β}
    {error : Error}
    (hFirst : program.Ends clock engine caches (.error error)
      after kept) :
    (program >>= next).Ends clock engine caches (.error error)
      after kept :=
  hFirst.andThen (ends_done _)

/- The outcome of a program is the result of attempting it. -/
theorem attempt
    {program : Program α}
    {outcome : Except Error α}
    (hProgram : program.Ends clock engine caches outcome
      after kept) :
    program.attempt.Ends clock engine caches (.ok outcome)
      after kept :=
  hProgram.andThen (ends_done _)

/- An attempt that succeeds is the last one. -/
theorem attempts
    (policy : Policy)
    (label : String)
    {action : Program α}
    {given : α}
    (hAction : action.Ends clock engine caches (.ok given)
      after kept) :
    (policy.run label action).Ends clock engine caches
      (.ok given) after kept := by
  unfold Policy.run
  cases policy.attempts - 1 with
  | zero => exact hAction.andThen (ends_done _)
  | succ further => exact hAction.andThen (ends_done _)

/- A program ends in one way. -/
theorem unique
    {program : Program α}
    {outcome outcome' : Except Error α}
    {after' : Engine}
    {kept' : Caches}
    (hEnds : program.Ends clock engine caches outcome after
      kept)
    (hAlso : program.Ends clock engine caches outcome' after'
      kept') :
    outcome = outcome' ∧ after = after' ∧ kept = kept' := by
  have hNone : Faults.none.Within .none := by
    simp [Faults.Within, Faults.none]
  rcases hEnds .none hNone with ⟨_, -, hEnd⟩
  rcases hAlso .none hNone with ⟨_, -, hEnd'⟩
  rw [hEnd] at hEnd'
  cases hEnd'
  exact ⟨rfl, rfl, rfl⟩

end Ends

/- A statement is answered. -/
theorem ends_run
    {contents later : Contents}
    {asked : Statement}
    {answer : asked.Answer}
    (hRun : asked.run clock contents = .ok (answer, later)) :
    (run asked).Ends clock (.ofContents contents) caches
      (.ok answer) (.ofContents later) caches := by
  have hPerform : (Engine.ofContents contents).perform clock
      (.shared asked) = (.ok answer, .ofContents later) := by
    simp only [Engine.perform, Engine.statement,
      Engine.ofContents, hRun]
  refine ends_ask rfl ?_
  rw [hPerform]
  exact ends_done _

/- So is a statement of a transaction. -/
theorem ends_runHeld
    {hold : Hold}
    {now later : Contents}
    {asked : Statement}
    {answer : asked.Answer}
    (hRun : asked.run clock now = .ok (answer, later)) :
    (runHeld asked).Ends clock ⟨now, some hold⟩ caches
      (.ok answer) ⟨later, some hold⟩ caches := by
  have hPerform : Engine.perform clock ⟨now, some hold⟩
      (.held asked) = (.ok answer, ⟨later, some hold⟩) := by
    simp only [Engine.perform, Engine.statement, hRun]
  refine ends_ask rfl ?_
  rw [hPerform]
  exact ends_done _

/- A transaction that succeeds is committed. -/
theorem ends_transaction
    {contents later : Contents}
    {body : Program α}
    {given : α}
    (hBody : body.Ends clock
      ⟨contents, some ⟨0, some contents⟩⟩ caches (.ok given)
      ⟨later, some ⟨0, some contents⟩⟩ kept) :
    (transaction body).Ends clock (.ofContents contents)
      caches (.ok given) (.ofContents later) kept := by
  have hCommitting : (do
      let found ← body
      request .commit
      pure found : Program α).attempt.Ends clock
        ⟨contents, some ⟨0, some contents⟩⟩ caches
        (.ok (.ok given)) ⟨later, some ⟨0, none⟩⟩ kept :=
    (hBody.bind
      (ends_ask rfl (ends_done (.ok given)))).attempt
  exact ends_ask rfl (hCommitting.bind
    (ends_ask rfl (ends_done (.ok given))))

------------------------------------------------------------
-- Requests that are made
------------------------------------------------------------

/- What a program may ask for that is bound to statements. -/
def Suits (may : Statement → Prop) : Phase → Request → Prop
  | .apart, .shared asked => may asked
  | .apart, .begin => True
  | .inside, .held asked => may asked
  | .inside, .commit => True
  | .inside, .release => True
  | .closing, .release => True
  | _, _ => False

/-
  Whatever is answered, and whatever is in the caches, only
  some statements are made, and transactions are ended.
-/
def Asks
    (may : Statement → Prop)
    (last : Phase → Prop) : Program α → Phase → Prop
  | done _, phase => last phase
  | cached _ next, phase =>
      ∀ caches, (next caches).Asks may last phase
  | ask request next, phase =>
      Suits may phase request ∧
        ∀ answer, (next answer).Asks may last
          (phase.after request answer)

/- All statements are such, in transactions or not. -/
abbrev BoundTo
    (may : Statement → Prop)
    (program : Program α) : Prop :=
  program.Asks may (fun phase => phase = .apart) .apart

variable {may may' : Statement → Prop}
variable {last last' : Phase → Prop} {phase : Phase}

theorem Suits.mono
    (hMay : ∀ asked, may asked → may' asked)
    {request : Request}
    (hSuits : Suits may phase request) :
    Suits may' phase request := by
  cases phase <;> cases request
  case apart.shared asked => exact hMay asked hSuits
  case inside.held asked => exact hMay asked hSuits
  all_goals exact hSuits

namespace Asks

theorem mono
    {program : Program α}
    (hAsks : program.Asks may last phase)
    (hMay : ∀ asked, may asked → may' asked)
    (hLast : ∀ phase, last phase → last' phase) :
    program.Asks may' last' phase := by
  induction program generalizing phase with
  | done outcome => exact hLast _ hAsks
  | cached update next ih =>
      exact fun caches => ih caches (hAsks caches)
  | ask request next ih =>
      exact ⟨hAsks.1.mono hMay, fun answer =>
        ih answer (hAsks.2 answer)⟩

theorem andThen
    {program : Program α}
    {next : Except Error α → Program β}
    (hFirst : program.Asks may last phase)
    (hNext : ∀ outcome phase, last phase →
      (next outcome).Asks may last' phase) :
    (program.andThen next).Asks may last' phase := by
  induction program generalizing phase with
  | done outcome => exact hNext outcome phase hFirst
  | cached update later ih =>
      exact fun caches => ih caches (hFirst caches)
  | ask request later ih =>
      exact ⟨hFirst.1, fun answer => ih answer
        (hFirst.2 answer)⟩

/- A statement within a transaction, and what follows it. -/
theorem held_bind
    {asked : Statement}
    {next : asked.Answer → Program α}
    (hMay : may asked)
    (hNext : ∀ found,
      (next found).Asks may last .inside)
    (hError : last .inside) :
    (runHeld asked >>= next).Asks may last .inside := by
  refine ⟨hMay, fun answer => ?_⟩
  cases answer with
  | ok found => exact hNext found
  | error error => exact hError

/- An error must not leave a transaction either. -/
theorem bind
    {program : Program α}
    {next : α → Program β}
    (hFirst : program.Asks may last phase)
    (hNext : ∀ found phase, last phase →
      (next found).Asks may last' phase)
    (hError : ∀ phase, last phase → last' phase) :
    (program >>= next).Asks may last' phase := by
  refine hFirst.andThen fun outcome phase hPhase => ?_
  cases outcome with
  | ok found => exact hNext found phase hPhase
  | error error => exact hError phase hPhase

end Asks

namespace BoundTo

theorem bind
    {program : Program α}
    {next : α → Program β}
    (hFirst : program.BoundTo may)
    (hNext : ∀ found, (next found).BoundTo may) :
    (program >>= next).BoundTo may := by
  refine Asks.bind hFirst ?_ fun _ hPhase => hPhase
  rintro found _ rfl
  exact hNext found

theorem done (outcome : Except Error α) :
    (Program.done outcome).BoundTo may :=
  rfl

theorem attempt
    {program : Program α}
    (hProgram : program.BoundTo may) :
    program.attempt.BoundTo may :=
  Asks.andThen hProgram fun _ _ hPhase => hPhase

theorem run
    {asked : Statement}
    (hMay : may asked) :
    (Program.run asked).BoundTo may :=
  ⟨hMay, fun _ => rfl⟩

/- A transaction is ended whatever happens within it. -/
theorem transaction
    {body : Program α}
    (hBody : body.Asks may (fun phase => phase = .inside)
      .inside) :
    (Program.transaction body).BoundTo may := by
  refine ⟨trivial, ?_⟩
  rintro (error | given)
  · rfl
  have hCommitting : (do
      let found ← body
      request .commit
      pure found : Program α).Asks may
        (fun phase => phase = .inside ∨ phase = .closing)
        .inside := by
    refine hBody.bind ?_ fun _ hPhase => Or.inl hPhase
    rintro found _ rfl
    refine ⟨trivial, ?_⟩
    rintro (error | given) <;> exact Or.inr rfl
  change ((do
      let found ← body
      request .commit
      pure found : Program α).attempt.andThen _).Asks may _ _
  unfold Program.attempt
  rw [andThen_andThen]
  refine hCommitting.andThen ?_
  rintro outcome phase (rfl | rfl)
  · exact ⟨trivial, fun answer => by cases answer <;> rfl⟩
  · exact ⟨trivial, fun answer => by cases answer <;> rfl⟩

theorem attempts
    (policy : Policy)
    (label : String)
    {action : Program α}
    (hAction : action.BoundTo may) :
    (policy.run label action).BoundTo may := by
  have hFrom (attempts further : Nat) :
      (Policy.runFrom label attempts action
        further).BoundTo may := by
    induction further with
    | zero =>
        refine Asks.andThen hAction ?_
        rintro (error | found) _ rfl
        · dsimp only
          split <;> rfl
        · rfl
    | succ further ih =>
        refine Asks.andThen hAction ?_
        rintro (error | found) _ rfl
        · dsimp only
          split
          · exact ih
          · rfl
        · rfl
  exact hFrom _ _

end BoundTo

end Program

------------------------------------------------------------
-- What is kept
------------------------------------------------------------

/- A statement that is made at a time keeps contents such. -/
def Statement.KeepsAt
    (clock : Clock)
    (such : Contents → Prop)
    (asked : Statement) : Prop :=
  ∀ before after,
    asked.Effect clock before after → such before → such after

/- Whenever a statement is made, it keeps contents such. -/
def Statement.Keeps
    (such : Contents → Prop)
    (asked : Statement) : Prop :=
  ∀ clock before after,
    asked.Effect clock before after → such before → such after

/- What the store holds for a program that is so far. -/
def Phase.Holds : Phase → Engine → Prop
  | apart, engine => engine.hold = none
  | inside, engine =>
      ∃ saved, engine.hold = some ⟨0, some saved⟩
  | closing, engine => engine.hold = some ⟨0, none⟩

namespace Engine

/- All contents that may be left are such. -/
structure Keeps
    (such : Contents → Prop)
    (engine : Engine) : Prop where
  contents : such engine.contents
  saved : ∀ hold ∈ engine.hold, ∀ saved ∈ hold.saved,
    such saved

variable {such : Contents → Prop} {may : Statement → Prop}
variable {engine : Engine} {phase : Phase}

/- A statement changes the contents and no more. -/
theorem Keeps.statement
    (hEngine : engine.Keeps such)
    {clock : Clock}
    {asked : Statement}
    (hKeeps : asked.KeepsAt clock such) :
    (engine.statement clock asked).2.hold = engine.hold ∧
      (engine.statement clock asked).2.Keeps such := by
  unfold Engine.statement
  split
  · rename_i answer after hRun
    exact ⟨rfl, hKeeps _ _ (Statement.effect hRun)
      hEngine.contents, hEngine.saved⟩
  · exact ⟨rfl, hEngine⟩

/- A request that suits a program does not wait. -/
theorem Keeps.perform
    (hEngine : engine.Keeps such)
    (hKeeps : ∀ asked, may asked → asked.Keeps such)
    (clock : Clock)
    {request : Request}
    (hSuits : Program.Suits may phase request)
    (hPhase : phase.Holds engine) :
    engine.blocks request = false ∧
      (phase.after request
        (engine.perform clock request).1).Holds
          (engine.perform clock request).2 ∧
      (engine.perform clock request).2.Keeps such := by
  rcases engine with ⟨contents, hold⟩
  cases phase with
  | apart =>
      have hFree : hold = none := hPhase
      subst hFree
      cases request with
      | shared asked =>
          rcases hEngine.statement (hKeeps asked hSuits clock)
            with ⟨hHold, hAfter⟩
          exact ⟨rfl, hHold, hAfter⟩
      | begin =>
          exact ⟨rfl, ⟨contents, rfl⟩, hEngine.contents, by
            rintro hold hSome saved hSaved
            cases hSome
            cases hSaved
            exact hEngine.contents⟩
      | held | nest | commit | release => cases hSuits
  | inside =>
      rcases hPhase with ⟨saved, hHold⟩
      have hSame : hold = some ⟨0, some saved⟩ := hHold
      subst hSame
      cases request with
      | held asked =>
          rcases hEngine.statement (hKeeps asked hSuits clock)
            with ⟨hHold, hAfter⟩
          exact ⟨rfl, ⟨saved, hHold⟩, hAfter⟩
      | commit =>
          exact ⟨rfl, rfl, hEngine.contents, by
            rintro hold hSome saved hSaved
            cases hSome
            cases hSaved⟩
      | release =>
          exact ⟨rfl, rfl, hEngine.saved _ rfl saved rfl, by
            rintro hold hSome
            cases hSome⟩
      | shared | begin | nest => cases hSuits
  | closing =>
      have hSame : hold = some ⟨0, none⟩ := hPhase
      subst hSame
      cases request with
      | release =>
          exact ⟨rfl, rfl, hEngine.contents, by
            rintro hold hSome
            cases hSome⟩
      | shared | held | begin | nest | commit => cases hSuits

end Engine

namespace Program

variable {α : Type} {may : Statement → Prop}
variable {such : Contents → Prop}

/- A program ends that is bound to some statements. -/
theorem Asks.ends
    {last : Phase → Prop}
    {phase : Phase}
    {program : Program α}
    (hAsks : program.Asks may last phase)
    (hKeeps : ∀ asked, may asked → asked.Keeps such)
    {engine : Engine}
    (hPhase : phase.Holds engine)
    (hEngine : engine.Keeps such)
    (clock : Clock)
    (caches : Caches) :
    ∃ outcome after kept,
      program.Ends clock engine caches outcome after kept ∧
        (∃ final, last final ∧ final.Holds after) ∧
        after.Keeps such := by
  induction program generalizing phase engine caches with
  | done outcome =>
      exact ⟨_, _, _, ends_done outcome,
        ⟨phase, hAsks, hPhase⟩, hEngine⟩
  | cached update next ih =>
      rcases ih _ (hAsks _) hPhase hEngine (update caches)
        with ⟨outcome, after, kept, hEnds, hRest⟩
      exact ⟨outcome, after, kept, ends_cached hEnds, hRest⟩
  | ask request next ih =>
      rcases hEngine.perform hKeeps clock hAsks.1 hPhase with
        ⟨hFree, hLater, hAfter⟩
      rcases ih _ (hAsks.2 _) hLater hAfter caches with
        ⟨outcome, after, kept, hEnds, hRest⟩
      exact ⟨outcome, after, kept, ends_ask hFree hEnds,
        hRest⟩

/-
  If it does not look at the caches, it ends in the same way
  whatever they hold.
-/
theorem Asks.ends_blind
    {last : Phase → Prop}
    {phase : Phase}
    {program : Program α}
    (hAsks : program.Asks may last phase)
    (hBlind : program.Blind)
    {engine : Engine}
    (hPhase : phase.Holds engine)
    (clock : Clock) :
    ∃ outcome after, ∀ caches, ∃ kept,
      program.Ends clock engine caches outcome after kept ∧
        (kept = caches ∨ kept = .empty) := by
  induction program generalizing phase engine with
  | done outcome =>
      exact ⟨outcome, engine, fun caches => ⟨caches,
        ends_done outcome, Or.inl rfl⟩⟩
  | cached update next ih =>
      rcases ih .empty (hAsks _) hBlind.2 hPhase with
        ⟨outcome, after, hEnds⟩
      refine ⟨outcome, after, fun caches => ?_⟩
      rcases hEnds .empty with ⟨kept, hKept, hSame⟩
      refine ⟨kept, ends_cached ?_, Or.inr (or_self_iff.1
        hSame)⟩
      rwa [hBlind.1]
  | ask request next ih =>
      have hTrue : engine.Keeps fun _ => True :=
        ⟨trivial, fun _ _ _ _ => trivial⟩
      rcases hTrue.perform (fun _ _ _ _ _ _ _ => trivial)
        clock hAsks.1 hPhase with ⟨hFree, hLater, -⟩
      rcases ih _ (hAsks.2 _) (hBlind _) hLater with
        ⟨outcome, after, hEnds⟩
      refine ⟨outcome, after, fun caches => ?_⟩
      rcases hEnds caches with ⟨kept, hKept, hSame⟩
      exact ⟨kept, ends_ask hFree hKept, hSame⟩

namespace BoundTo

variable {program : Program α}

/- The store is free when a program ends that found it so. -/
theorem ends
    (hBound : program.BoundTo may)
    (clock : Clock)
    (contents : Contents)
    (caches : Caches) :
    ∃ outcome after kept,
      program.Ends clock (.ofContents contents) caches outcome
        (.ofContents after) kept := by
  have hTrue :
      (Engine.ofContents contents).Keeps fun _ => True :=
    ⟨trivial, fun _ _ _ _ => trivial⟩
  rcases Asks.ends hBound (fun _ _ _ _ _ _ _ => trivial)
    (show Phase.apart.Holds (.ofContents contents) from rfl)
    hTrue clock caches with
    ⟨outcome, ⟨after, hold⟩, kept, hEnds, ⟨_, rfl, hFree⟩, -⟩
  have hNone : hold = none := hFree
  subst hNone
  exact ⟨outcome, after, kept, hEnds⟩

/- What all of its statements keep, a program keeps. -/
theorem keeps
    (hBound : program.BoundTo may)
    (hKeeps : ∀ asked, may asked → asked.Keeps such)
    {clock : Clock}
    {contents after : Contents}
    {caches kept : Caches}
    {outcome : Except Error α}
    (hEnds : program.Ends clock (.ofContents contents) caches
      outcome (.ofContents after) kept)
    (hSuch : such contents) :
    such after := by
  rcases Asks.ends hBound hKeeps
    (show Phase.apart.Holds (.ofContents contents) from rfl)
    ⟨hSuch, by rintro _ ⟨⟩⟩ clock caches with
    ⟨_, _, _, hSame, -, hAfter⟩
  rcases hEnds.unique hSame with ⟨-, rfl, -⟩
  exact hAfter.contents

end BoundTo

end Program

end SparseTables
