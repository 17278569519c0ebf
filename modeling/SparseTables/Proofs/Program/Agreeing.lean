import SparseTables.Proofs.Contents.Keyed
import SparseTables.Proofs.Program.Ending

/-
  This file compares runs of programs that start with the
  same contents of the store but with different caches.

  The caches mirror the contents, which only have to be
  keyed: slots and items may refer to what is gone.  Programs
  agree if they end alike then, and leave the same contents.

  Main declarations:
    * `Statement.keeps_ages`
    * `Statement.keeps_keyed`
    * `Program.ComesTo`
    * `Program.ComesTo.attempts`
    * `Program.Agrees`
    * `Program.Agrees.bind`
    * `Program.Sure`
    * `Program.Sure.of_blind`
    * `Program.Sure.clearing`
-/

namespace SparseTables

------------------------------------------------------------
-- What statements keep
------------------------------------------------------------

namespace Statement

/- What was retained before is retained still. -/
theorem Leaves.keeps_retained
    {asked : Statement}
    (hLeaves : asked.Leaves)
    (start : Contents) :
    asked.Keeps start.Retains :=
  fun _ _ _ hEffect hRetains =>
    hRetains.trans (hEffect.retains hLeaves)

/- No identity that was given out before is given again. -/
theorem keeps_ages
    (asked : Statement)
    (start : Contents) :
    asked.Keeps start.Ages :=
  fun _ _ _ hEffect hAges => hAges.trans hEffect.ages

/- All statements keep the contents keyed. -/
theorem keeps_keyed (asked : Statement) :
    asked.Keeps Contents.Keyed :=
  fun _ _ _ hEffect hKeyed => hKeyed.effect hEffect

end Statement

namespace Program

variable {α β γ : Type}

------------------------------------------------------------
-- Programs that end in one way
------------------------------------------------------------

/- So a program ends whatever is mirrored by the caches. -/
def ComesTo
    (clock : Clock)
    (contents : Contents)
    (program : Program α)
    (outcome : Except Error α)
    (after : Contents) : Prop :=
  ∀ caches, caches.Mirrors contents → ∃ kept,
    program.Ends clock (.ofContents contents) caches outcome
      (.ofContents after) kept ∧
    kept.Mirrors after

namespace ComesTo

variable {clock : Clock} {contents after last : Contents}
variable {program : Program α}

theorem done (outcome : Except Error α) :
    (Program.done outcome).ComesTo clock contents outcome
      contents :=
  fun caches hMirrors => ⟨caches, ends_done outcome, hMirrors⟩

theorem check
    {check : Except Error α}
    {outcome : Except Error α}
    (hCheck : check = outcome) :
    (Program.done check).ComesTo clock contents outcome
      contents :=
  fun caches hMirrors =>
    ⟨caches, ends_check hCheck, hMirrors⟩

theorem bind
    {next : α → Program β}
    {given : α}
    {outcome : Except Error β}
    (hFirst : program.ComesTo clock contents (.ok given)
      after)
    (hNext : (next given).ComesTo clock after outcome last) :
    (program >>= next).ComesTo clock contents outcome
      last := by
  intro caches hMirrors
  rcases hFirst caches hMirrors with ⟨kept, hEnds, hKept⟩
  rcases hNext kept hKept with ⟨final, hLast, hFinal⟩
  exact ⟨final, hEnds.bind hLast, hFinal⟩

theorem bind_error
    {next : α → Program β}
    {error : Error}
    (hFirst : program.ComesTo clock contents (.error error)
      after) :
    (program >>= next).ComesTo clock contents (.error error)
      after := by
  intro caches hMirrors
  rcases hFirst caches hMirrors with ⟨kept, hEnds, hKept⟩
  exact ⟨kept, hEnds.bind_error, hKept⟩

theorem map
    (change : α → β)
    {given : α}
    (hProgram : program.ComesTo clock contents (.ok given)
      after) :
    (change <$> program).ComesTo clock contents
      (.ok (change given)) after :=
  hProgram.bind (.done _)

/- A statement that is answered. -/
theorem run
    (asked : Statement)
    {answer : asked.Answer}
    (hRun : asked.run clock contents = .ok (answer, after))
    (hRetains : contents.Retains after) :
    (Program.run asked).ComesTo clock contents (.ok answer)
      after :=
  fun caches hMirrors => ⟨caches, ends_run hRun,
    hMirrors.retains hRetains⟩

/- A statement that is refused. -/
theorem run_error
    (asked : Statement)
    {error : Error}
    (hRun : asked.run clock contents = .error error) :
    (Program.run asked).ComesTo clock contents (.error error)
      contents := by
  have hPerform : (Engine.ofContents contents).perform clock
      (.shared asked) =
        (.error error, .ofContents contents) := by
    simp only [Engine.perform, Engine.statement,
      Engine.ofContents, hRun]
  refine fun caches hMirrors => ⟨caches, ends_ask rfl ?_,
    hMirrors⟩
  rw [hPerform]
  exact ends_done _

/- What is read is followed by what is done with it. -/
theorem read
    {asked : Statement}
    {answer : asked.Answer}
    (hRun : asked.run clock contents =
      .ok (answer, contents))
    {next : asked.Answer → Program α}
    {outcome : Except Error α}
    (hNext : (next answer).ComesTo clock contents outcome
      last) :
    (Program.run asked >>= next).ComesTo clock contents
      outcome last :=
  (run asked hRun (.refl contents)).bind hNext

------------------------------------------------------------
-- Attempts
------------------------------------------------------------

/- An attempt that succeeds is the last one. -/
theorem attempts
    (policy : Policy)
    (label : String)
    {given : α}
    (hAction : program.ComesTo clock contents (.ok given)
      after) :
    (policy.run label program).ComesTo clock contents
      (.ok given) after := by
  intro caches hMirrors
  rcases hAction caches hMirrors with ⟨kept, hEnds, hKept⟩
  exact ⟨kept, hEnds.attempts policy label, hKept⟩

/- Attempts that all fail in one way fail in one way. -/
theorem attempts_error
    (policy : Policy)
    (label : String)
    {error : Error}
    (hAction : program.ComesTo clock contents (.error error)
      contents) :
    ∃ outcome, (policy.run label program).ComesTo clock
      contents outcome contents := by
  have hFrom (attempts further : Nat) :
      ∃ outcome, (Policy.runFrom label attempts program
        further).ComesTo clock contents outcome contents := by
    induction further with
    | zero =>
        refine ⟨.error (if error.isRetryable then
          .exhausted label attempts error else error),
          fun caches hMirrors => ?_⟩
        rcases hAction caches hMirrors with
          ⟨kept, hEnds, hKept⟩
        refine ⟨kept, hEnds.andThen ?_, hKept⟩
        dsimp only
        split <;> exact ends_done _
    | succ further ih =>
        rcases ih with ⟨outcome, hLater⟩
        refine ⟨if error.isRetryable then outcome
          else .error error, fun caches hMirrors => ?_⟩
        rcases hAction caches hMirrors with
          ⟨kept, hEnds, hKept⟩
        rcases hLater kept hKept with
          ⟨last, hLast, hMirrors⟩
        by_cases hRetry : error.isRetryable
        · refine ⟨last, hEnds.andThen ?_, hMirrors⟩
          simp only [hRetry, ↓reduceIte]
          exact hLast
        · refine ⟨kept, hEnds.andThen ?_, hKept⟩
          simp only [hRetry]
          exact ends_done _
  exact hFrom _ _

end ComesTo

------------------------------------------------------------
-- Programs that agree
------------------------------------------------------------

/- Both fail in the same way, or both give something alike. -/
def AlikeOutcomes (alike : α → α → Prop) :
    Except Error α → Except Error α → Prop
  | .ok given, .ok other => alike given other
  | .error error, .error other => error = other
  | _, _ => False

theorem alikeOutcomes_refl
    {alike : α → α → Prop}
    (hRefl : ∀ given, alike given given)
    (outcome : Except Error α) :
    AlikeOutcomes alike outcome outcome := by
  cases outcome with
  | ok given => exact hRefl given
  | error error => exact rfl

/-
  Two programs that are bound to some statements end alike
  and leave the same contents, from any caches that mirror
  those before.
-/
structure Agrees
    (may : Statement → Prop)
    (alike : α → α → Prop)
    (left right : Program α) : Prop where
  bound : left.BoundTo may
  boundToo : right.BoundTo may
  ends : ∀ clock contents caches caches',
    contents.Keyed → caches.Mirrors contents →
      caches'.Mirrors contents →
        ∃ outcome outcome' after kept kept',
          left.Ends clock (.ofContents contents) caches
            outcome (.ofContents after) kept ∧
          right.Ends clock (.ofContents contents) caches'
            outcome' (.ofContents after) kept' ∧
          AlikeOutcomes alike outcome outcome' ∧
          kept.Mirrors after ∧ kept'.Mirrors after

/- The same program agrees with itself. -/
abbrev Sure
    (may : Statement → Prop)
    (program : Program α) : Prop :=
  program.Agrees may Eq program

variable {may may' : Statement → Prop}

/- A program that ends in one way agrees with itself. -/
theorem sure_of_comesTo
    {program : Program α}
    (hBound : program.BoundTo may)
    (hComes : ∀ clock contents, contents.Keyed →
      ∃ outcome after,
        program.ComesTo clock contents outcome after) :
    program.Sure may where
  bound := hBound
  boundToo := hBound
  ends clock contents caches caches' hKeyed hMirrors
      hMirrors' := by
    rcases hComes clock contents hKeyed with
      ⟨outcome, after, hProgram⟩
    rcases hProgram caches hMirrors with
      ⟨kept, hEnds, hKept⟩
    rcases hProgram caches' hMirrors' with
      ⟨kept', hEnds', hKept'⟩
    exact ⟨outcome, outcome, after, kept, kept', hEnds,
      hEnds', alikeOutcomes_refl (fun _ => rfl) outcome,
      hKept, hKept'⟩

namespace Agrees

variable {alike : α → α → Prop} {alike' : β → β → Prop}
variable {left right : Program α}

theorem done (outcome : Except Error α) :
    (Program.done outcome).Agrees may Eq
      (Program.done outcome) :=
  sure_of_comesTo rfl fun _ contents _ =>
    ⟨outcome, contents, .done outcome⟩

theorem pure
    {given other : α}
    (hAlike : alike given other) :
    (Pure.pure given : Program α).Agrees may alike
      (Pure.pure other) where
  bound := rfl
  boundToo := rfl
  ends _ contents caches caches' _ hMirrors hMirrors' :=
    ⟨.ok given, .ok other, contents, caches, caches',
      ends_done _, ends_done _, hAlike, hMirrors, hMirrors'⟩

theorem mono
    {further : α → α → Prop}
    (hAgrees : left.Agrees may alike right)
    (hMay : ∀ asked, may asked → may' asked)
    (hAlike : ∀ given other, alike given other →
      further given other) :
    left.Agrees may' further right where
  bound := hAgrees.bound.mono hMay fun _ hPhase => hPhase
  boundToo :=
    hAgrees.boundToo.mono hMay fun _ hPhase => hPhase
  ends clock contents caches caches' hKeyed hMirrors
      hMirrors' := by
    rcases hAgrees.ends clock contents caches caches' hKeyed
      hMirrors hMirrors' with ⟨outcome, outcome', after, kept,
        kept', hEnds, hEnds', hOutcomes, hKept⟩
    refine ⟨outcome, outcome', after, kept, kept', hEnds,
      hEnds', ?_, hKept⟩
    rcases outcome with error | given <;>
      rcases outcome' with error' | other
    · exact hOutcomes
    · exact hOutcomes
    · exact hOutcomes
    · exact hAlike given other hOutcomes

/-
  Sequences agree if their parts do, and the second parts go
  on with what is alike.
-/
theorem bind
    {next next' : α → Program β}
    (hFirst : left.Agrees may alike right)
    (hRefl : ∀ given, alike given given)
    (hNext : ∀ given other, alike given other →
      (next given).Agrees may alike' (next' other)) :
    (left >>= next).Agrees may alike' (right >>= next') where
  bound := hFirst.bound.bind fun given =>
    (hNext given given (hRefl given)).bound
  boundToo := hFirst.boundToo.bind fun given =>
    (hNext given given (hRefl given)).boundToo
  ends clock contents caches caches' hKeyed hMirrors
      hMirrors' := by
    rcases hFirst.ends clock contents caches caches' hKeyed
      hMirrors hMirrors' with ⟨outcome, outcome', after, kept,
        kept', hEnds, hEnds', hOutcomes, hKept, hKept'⟩
    have hAfter := hFirst.bound.keeps
      (fun asked _ => asked.keeps_keyed) hEnds hKeyed
    rcases outcome with error | given <;>
      rcases outcome' with error' | other
    · cases hOutcomes
      exact ⟨_, _, after, kept, kept', hEnds.bind_error,
        hEnds'.bind_error, rfl, hKept, hKept'⟩
    · cases hOutcomes
    · cases hOutcomes
    · rcases (hNext given other hOutcomes).ends clock after
        kept kept' hAfter hKept hKept' with ⟨last, last',
          final, more, more', hLast, hLast', hRest⟩
      exact ⟨last, last', final, more, more',
        hEnds.bind hLast, hEnds'.bind hLast', hRest⟩

end Agrees

namespace Sure

variable {program : Program α}

/- A sequence agrees with itself if its parts do. -/
theorem bind
    {alike : β → β → Prop}
    {next : α → Program β}
    (hFirst : program.Sure may)
    (hNext : ∀ given,
      (next given).Agrees may alike (next given)) :
    (program >>= next).Agrees may alike
      (program >>= next) := by
  refine Agrees.bind hFirst (fun _ => rfl) ?_
  rintro given _ rfl
  exact hNext given

theorem map
    (change : α → β)
    (hProgram : program.Sure may) :
    (change <$> program).Sure may :=
  hProgram.bind fun _ => .pure rfl

theorem required
    (what : String)
    (found : Option α) :
    (Program.required what found).Sure may := by
  cases found <;> exact .done _

theorem run
    (asked : Statement)
    (hMay : may asked)
    (hLeaves : asked.Leaves) :
    (Program.run asked).Sure may := by
  refine sure_of_comesTo (.run hMay) fun clock contents _ => ?_
  cases hRun : asked.run clock contents with
  | ok given =>
      exact ⟨_, _, .run asked hRun
        ((Statement.effect hRun).retains hLeaves)⟩
  | error error => exact ⟨_, _, .run_error asked hRun⟩

/- Programs that do not look at the caches are sure. -/
theorem of_blind
    (hBlind : program.Blind)
    (hBound : program.BoundTo may)
    (hLeaves : ∀ asked, may asked → asked.Leaves) :
    program.Sure may := by
  refine sure_of_comesTo hBound fun clock contents _ => ?_
  rcases hBound.ends clock contents .empty with
    ⟨outcome, after, _, hSome⟩
  rcases Asks.ends_blind hBound hBlind
    (show Phase.apart.Holds (.ofContents contents) from rfl)
    clock with ⟨_, _, hAll⟩
  rcases hAll .empty with ⟨_, hEmpty, -⟩
  rcases hSome.unique hEmpty with ⟨rfl, rfl, -⟩
  have hRetains := hBound.keeps (fun asked hMay =>
    (hLeaves asked hMay).keeps_retained contents) hSome
    (.refl contents)
  refine ⟨outcome, after, fun caches hMirrors => ?_⟩
  rcases hAll caches with ⟨kept, hEnds, rfl | rfl⟩
  · exact ⟨kept, hEnds, hMirrors.retains hRetains⟩
  · exact ⟨.empty, hEnds, .empty after⟩

/-
  A program that does not look at the caches and clears them
  at its end ends alike from all caches.
-/
theorem ends_clearing
    (hBlind : program.Blind)
    (hBound : program.BoundTo may)
    (clock : Clock)
    (contents : Contents) :
    ∃ outcome after, ∀ caches,
      (do
        let outcome ← Program.attempt program
        clearCaches
        Program.done outcome : Program α).Ends clock
          (.ofContents contents) caches outcome
          (.ofContents after) .empty := by
  rcases hBound.ends clock contents .empty with
    ⟨outcome, after, _, hSome⟩
  rcases Asks.ends_blind hBound hBlind
    (show Phase.apart.Holds (.ofContents contents) from rfl)
    clock with ⟨_, _, hAll⟩
  rcases hAll .empty with ⟨_, hEmpty, -⟩
  rcases hSome.unique hEmpty with ⟨rfl, rfl, -⟩
  refine ⟨outcome, after, fun caches => ?_⟩
  rcases hAll caches with ⟨kept, hEnds, -⟩
  exact hEnds.attempt.bind (ends_cached (ends_done _))

/-
  What a program makes of the contents that does not look at
  the caches does not matter if they are cleared at its end.
-/
theorem clearing
    (hBlind : program.Blind)
    (hBound : program.BoundTo may) :
    (do
      let outcome ← Program.attempt program
      clearCaches
      Program.done outcome : Program α).Sure may := by
  refine sure_of_comesTo (hBound.attempt.bind
    fun _ _ => rfl) fun clock contents _ => ?_
  rcases ends_clearing hBlind hBound clock contents with
    ⟨outcome, after, hEnds⟩
  exact ⟨outcome, after, fun caches _ =>
    ⟨.empty, hEnds caches, .empty after⟩⟩

/- What was kept does not matter once it is forgotten. -/
theorem clearCaches_bind
    {next : Unit → Program α}
    (hNext : (next ()).Sure may) :
    (clearCaches >>= next).Sure may where
  bound := fun _ => hNext.bound
  boundToo := fun _ => hNext.boundToo
  ends clock contents _ _ hKeyed _ _ :=
    hNext.ends clock contents .empty .empty hKeyed
      (.empty contents) (.empty contents)

end Sure

end Program

end SparseTables
