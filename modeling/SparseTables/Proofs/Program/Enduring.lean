import SparseTables.Proofs.Program.Ending

/-
  This file lists the failures that a program meets, and shows
  what becomes of attempts that meet some.

  An attempt ends with the first failure that it meets, and
  leaves the store and the caches so that the next one can
  begin.  The failures of all attempts therefore number the
  attempts that have failed.

  Main declarations:
    * `Program.failures`
    * `Program.Suffers`
    * `Program.suffers_run_bind`
    * `Program.Attempted`
    * `Policy.Endured`
    * `Policy.suffers_run`
-/

namespace SparseTables

namespace Program

variable {α β : Type}

------------------------------------------------------------
-- Failures
------------------------------------------------------------

/- The failures that a program meets, in order. -/
def failures (shared : Shared) : Program α → List Failure
  | done _ => []
  | cached update next =>
      let caches := update shared.caches
      (next caches).failures { shared with caches }
  | ask request next =>
      let (failure, store) := shared.store.meet request
      match failure with
      | some ⟨false, error⟩ =>
          ⟨false, error⟩ ::
            (next (.error error)).failures
              { shared with store }
      | other =>
          let lost := other.map Failure.error
          if store.engine.blocks request then
            other.toList
          else
            let (answer, store) := store.perform request lost
            other.toList ++
              (next answer).failures { shared with store }

/- A program meets some failures and finishes. -/
structure Meets
    (program : Program α)
    (shared : Shared)
    (met : List Failure)
    (outcome : Except Error α)
    (after : Shared) : Prop where
  failures : program.failures shared = met
  advance : program.advance shared = (.finished outcome, after)

/- A sequence meets the failures of its parts. -/
theorem failures_andThen
    {program : Program α}
    (next : Except Error α → Program β)
    {outcome : Except Error α}
    {shared mid : Shared}
    (hEnd : program.advance shared =
      (.finished outcome, mid)) :
    (program.andThen next).failures shared =
      program.failures shared ++
        (next outcome).failures mid := by
  induction program generalizing shared with
  | done given =>
      cases hEnd
      rfl
  | cached update later ih => exact ih _ hEnd
  | ask request later ih =>
      rcases hMeet : shared.store.meet request with
        ⟨failure, store⟩
      simp only [advance, andThen, failures, hMeet] at hEnd ⊢
      by_cases hBlocks : store.engine.blocks request = true
      · -- Only a request that is refused does not wait.
        rcases failure with _ | ⟨_ | _, error⟩
        · simp [hBlocks] at hEnd
        · exact congrArg (List.cons _) (ih _ hEnd)
        · simp [hBlocks] at hEnd
      · rcases failure with _ | ⟨_ | _, error⟩
        · simp only [hBlocks] at hEnd ⊢
          exact ih _ hEnd
        · exact congrArg (List.cons _) (ih _ hEnd)
        · simp only [hBlocks] at hEnd ⊢
          exact congrArg (List.cons _) (ih _ hEnd)

theorem Meets.andThen
    {program : Program α}
    {next : Except Error α → Program β}
    {shared mid after : Shared}
    {met more : List Failure}
    {outcome : Except Error α}
    {last : Except Error β}
    (hFirst : program.Meets shared met outcome mid)
    (hNext : (next outcome).Meets mid more last after) :
    (program.andThen next).Meets shared (met ++ more) last
      after where
  failures := by
    rw [failures_andThen next hFirst.advance, hFirst.failures,
      hNext.failures]
  advance :=
    (advance_andThen next hFirst.advance).trans hNext.advance

------------------------------------------------------------
-- Programs that suffer failures
------------------------------------------------------------

/- What failures, an outcome and what is left can satisfy. -/
abbrev Toll (α : Type) : Type :=
  List Failure → Except Error α → Contents → Caches → Prop

/-
  A program comes to an end while nobody else uses the store,
  whatever failures are planned, and what it has met then and
  what it leaves are as they should be.
-/
def Suffers
    (clock : Clock)
    (program : Program α)
    (contents : Contents)
    (caches : Caches)
    (toll : Toll α) : Prop :=
  ∀ faults : Faults,
    ∃ met outcome after kept, ∃ later : Faults,
      program.Meets
        ⟨⟨.ofContents contents, clock, faults⟩, caches⟩ met
        outcome ⟨⟨.ofContents after, clock, later⟩, kept⟩ ∧
      toll met outcome after kept

section Suffering

variable {clock : Clock} {contents : Contents}
variable {caches : Caches}

theorem suffers_done
    {outcome : Except Error α}
    {toll : Toll α}
    (hToll : toll [] outcome contents caches) :
    (done outcome).Suffers clock contents caches toll :=
  fun faults => ⟨[], outcome, contents, caches, faults,
    ⟨rfl, rfl⟩, hToll⟩

theorem suffers_cached
    {update : Caches → Caches}
    {next : Caches → Program α}
    {toll : Toll α}
    (hNext : (next (update caches)).Suffers clock contents
      (update caches) toll) :
    (cached update next).Suffers clock contents caches
      toll := by
  intro faults
  rcases hNext faults with
    ⟨met, outcome, after, kept, later, hMeets, hToll⟩
  exact ⟨met, outcome, after, kept, later,
    ⟨hMeets.failures, hMeets.advance⟩, hToll⟩

/- A program goes on if a check accepts. -/
theorem suffers_check_bind
    {check : Except Error β}
    {found : β}
    (hCheck : check = .ok found)
    {next : β → Program α}
    {toll : Toll α}
    (hNext : (next found).Suffers clock contents caches
      toll) :
    (done check >>= next).Suffers clock contents caches
      toll := by
  subst hCheck
  exact hNext

/- To look at the caches changes nothing. -/
theorem suffers_caches_bind
    {next : Caches → Program α}
    {toll : Toll α}
    (hNext : (next caches).Suffers clock contents caches
      toll) :
    (Program.caches >>= next).Suffers clock contents caches
      toll :=
  suffers_cached hNext

/- A sequence suffers what its parts do, one by one. -/
theorem Suffers.andThen
    {program : Program α}
    {next : Except Error α → Program β}
    {mid : Toll α}
    {toll : Toll β}
    (hFirst : program.Suffers clock contents caches mid)
    (hNext : ∀ met outcome after kept,
      mid met outcome after kept →
        (next outcome).Suffers clock after kept
          fun more => toll (met ++ more)) :
    (program.andThen next).Suffers clock contents caches
      toll := by
  intro faults
  rcases hFirst faults with
    ⟨met, outcome, after, kept, later, hMeets, hMid⟩
  rcases hNext met outcome after kept hMid later with
    ⟨more, last, final, held, rest, hLater, hToll⟩
  exact ⟨met ++ more, last, final, held, rest,
    hMeets.andThen hLater, hToll⟩

theorem Suffers.mono
    {program : Program α}
    {toll toll' : Toll α}
    (hProgram : program.Suffers clock contents caches toll)
    (hToll : ∀ met outcome after kept,
      toll met outcome after kept →
        toll' met outcome after kept) :
    program.Suffers clock contents caches toll' := by
  intro faults
  rcases hProgram faults with
    ⟨met, outcome, after, kept, later, hMeets, hHolds⟩
  exact ⟨met, outcome, after, kept, later, hMeets,
    hToll met outcome after kept hHolds⟩

------------------------------------------------------------
-- Attempts
------------------------------------------------------------

/-
  An attempt meets no failure and succeeds, or fails with the
  one that it meets.
-/
inductive Attempted
    (good : α → Contents → Caches → Prop)
    (inv : Contents → Caches → Prop) : Toll α where
  | succeeds
      {given : α}
      {after : Contents}
      {kept : Caches}
      (hGood : good given after kept) :
      Attempted good inv [] (.ok given) after kept
  | fails
      (failure : Failure)
      {after : Contents}
      {kept : Caches}
      (hInv : inv after kept) :
      Attempted good inv [failure] (.error failure.error)
        after kept

variable {good : α → Contents → Caches → Prop}
variable {inv : Contents → Caches → Prop}

/-
  A statement that would succeed is refused, or its answer is
  lost, or the attempt goes on with it.
-/
theorem suffers_run_bind
    {asked : Statement}
    {answer : asked.Answer}
    {after : Contents}
    (hRun : asked.run clock contents = .ok (answer, after))
    (hRefused : inv contents caches)
    (hLost : inv after caches)
    {next : asked.Answer → Program α}
    (hNext : (next answer).Suffers clock after caches
      (Attempted good inv)) :
    (run asked >>= next).Suffers clock contents caches
      (Attempted good inv) := by
  intro faults
  rcases hMeet : faults.meet (.statement asked.kind)
    (asked.text clock) with ⟨failure, later⟩
  have hMet : Store.meet
      ⟨.ofContents contents, clock, faults⟩
        (.shared asked) =
      (failure, ⟨.ofContents contents, clock, later⟩) := by
    simp only [Store.meet, Engine.kind?, Request.text, hMeet]
  have hPerform (lost : Option Error) :
      Store.perform ⟨.ofContents contents, clock, later⟩
        (.shared asked) lost =
      (lost.elim (.ok answer) .error,
        ⟨.ofContents after, clock, later⟩) := by
    cases lost <;>
      simp [Store.perform, Engine.perform, Engine.statement,
        Engine.ofContents, hRun]
  have hOpen : (Engine.ofContents contents).blocks
      (.shared asked) = false := rfl
  change ∃ met outcome final kept, ∃ rest : Faults,
    (ask (.shared asked) _).Meets _ _ _ _ ∧ _
  rcases failure with _ | ⟨_ | _, error⟩
  · rcases hNext later with
      ⟨met, outcome, final, kept, rest, hMeets, hToll⟩
    refine ⟨met, outcome, final, kept, rest, ⟨?_, ?_⟩, hToll⟩
    · simp only [failures, hMet, hOpen, Option.map_none,
        hPerform]
      exact hMeets.failures
    · simp only [advance, hMet, hOpen, Option.map_none,
        hPerform]
      exact hMeets.advance
  · refine ⟨_, _, _, _, later, ⟨?_, ?_⟩,
      .fails ⟨false, error⟩ hRefused⟩
    · simp only [failures, hMet]
      rfl
    · simp only [advance, hMet]
      rfl
  · refine ⟨_, _, _, _, later, ⟨?_, ?_⟩,
      .fails ⟨true, error⟩ hLost⟩
    · simp only [failures, hMet, hOpen, Option.map_some,
        hPerform]
      rfl
    · simp only [advance, hMet, hOpen, Option.map_some,
        hPerform]
      rfl

end Suffering

end Program

------------------------------------------------------------
-- All attempts
------------------------------------------------------------

namespace Policy

open Program

variable {α : Type}

/-
  As long as attempts are left one succeeds.  When all have
  failed, the last failure is the cause of the error.
-/
inductive Endured
    (label : String)
    (attempts limit : Nat)
    (good : α → Contents → Caches → Prop)
    (inv : Contents → Caches → Prop) : Toll α where
  | succeeds
      {met : List Failure}
      {given : α}
      {after : Contents}
      {kept : Caches}
      (hFew : met.length < limit)
      (hGood : good given after kept) :
      Endured label attempts limit good inv met (.ok given)
        after kept
  | exhausted
      {met : List Failure}
      {last : Failure}
      {after : Contents}
      {kept : Caches}
      (hAll : met.length = limit)
      (hLast : met.getLast? = some last)
      (hInv : inv after kept) :
      Endured label attempts limit good inv met
        (.error (.exhausted label attempts last.error)) after
        kept

section Enduring

variable {good : α → Contents → Caches → Prop}
variable {inv : Contents → Caches → Prop}
variable {label : String} {attempts limit : Nat}

/- One failure more has come first. -/
theorem Endured.cons
    {met : List Failure}
    {outcome : Except Error α}
    {after : Contents}
    {kept : Caches}
    (hEndured : Endured label attempts limit good inv met
      outcome after kept)
    (first : Failure) :
    Endured label attempts (limit + 1) good inv (first :: met)
      outcome after kept := by
  cases hEndured with
  | succeeds hFew hGood =>
      exact .succeeds (Nat.succ_lt_succ hFew) hGood
  | exhausted hAll hLast hInv =>
      refine .exhausted (congrArg Nat.succ hAll) ?_ hInv
      rw [List.getLast?_cons, hLast, Option.getD_some]

variable {clock : Clock} {action : Program α}

/-
  What each attempt keeps if it fails, all attempts keep, as
  long as only the store fails.
-/
theorem suffers_runFrom
    (label : String)
    (attempts : Nat)
    (hAction : ∀ contents caches, inv contents caches →
      action.Suffers clock contents caches
        (Attempted good inv))
    (further : Nat)
    {contents : Contents}
    {caches : Caches}
    (hInv : inv contents caches) :
    (runFrom label attempts action further).Suffers clock
      contents caches fun met outcome after kept =>
        (∀ failure ∈ met, failure.error.isRetryable) →
          Endured label attempts (further + 1) good inv met
            outcome after kept := by
  induction further generalizing contents caches with
  | zero =>
      refine (hAction contents caches hInv).andThen ?_
      rintro _ _ after kept (⟨hGood⟩ | ⟨failure, hInv⟩)
      · exact suffers_done fun _ =>
          .succeeds Nat.one_pos hGood
      · dsimp only
        split
        · exact suffers_done fun _ =>
            .exhausted rfl rfl hInv
        · rename_i hOther
          exact suffers_done fun hStore =>
            absurd (hStore failure (.head _)) hOther
  | succ further ih =>
      refine (hAction contents caches hInv).andThen ?_
      rintro _ _ after kept (⟨hGood⟩ | ⟨failure, hInv⟩)
      · exact suffers_done fun _ =>
          .succeeds (Nat.succ_pos _) hGood
      · dsimp only
        split
        · refine (ih hInv).mono ?_
          intro met outcome last held hLater hStore
          exact (hLater fun other hOther =>
            hStore other (.tail _ hOther)).cons failure
        · rename_i hOther
          exact suffers_done fun hStore =>
            absurd (hStore failure (.head _)) hOther

theorem suffers_run
    (policy : Policy)
    (label : String)
    (hAction : ∀ contents caches, inv contents caches →
      action.Suffers clock contents caches
        (Attempted good inv))
    {contents : Contents}
    {caches : Caches}
    (hInv : inv contents caches) :
    (policy.run label action).Suffers clock contents caches
      fun met outcome after kept =>
        (∀ failure ∈ met, failure.error.isRetryable) →
          Endured label policy.attempts policy.attempts good
            inv met outcome after kept := by
  have hAttempts := suffers_runFrom label policy.attempts
    hAction (policy.attempts - 1) hInv
  rwa [Nat.sub_add_cancel policy.positive] at hAttempts

end Enduring

end Policy

end SparseTables
