import SparseTables.Proofs.Program.Wiping

/-
  This file follows programs whatever the store answers, and
  programs that only read whatever fails on the way.

  What holds of all outcomes that a program gives for some
  answers needs no knowledge of the store, and holds in
  every state of it.  What only reads leaves the contents as
  they are in every state, so it can be tried again.

  Main declarations:
    * `Program.Yields`
    * `Program.Yields.of_advance`
    * `Program.Yields.of_bind`
    * `Program.Tells`
    * `Program.tells_read`
    * `Policy.tells_run`
-/

namespace SparseTables

namespace Program

variable {α β : Type}

/- For some answers of the store, the program ends so. -/
inductive Yields : Program α → Except Error α → Prop where
  | done (outcome : Except Error α) :
      Yields (done outcome) outcome
  | ask
      {request : Request}
      {next : Except Error request.Answer → Program α}
      {outcome : Except Error α}
      (answer : Except Error request.Answer)
      (hNext : Yields (next answer) outcome) :
      Yields (ask request next) outcome
  | cached
      {update : Caches → Caches}
      {next : Caches → Program α}
      {outcome : Except Error α}
      (caches : Caches)
      (hNext : Yields (next caches) outcome) :
      Yields (cached update next) outcome

namespace Yields

/- A program that is finished has given its outcome. -/
theorem of_advance
    {shared after : Shared}
    {program : Program α}
    {outcome : Except Error α}
    (hAdvance : program.advance shared =
      (.finished outcome, after)) :
    program.Yields outcome := by
  induction program generalizing shared with
  | done given =>
      cases hAdvance
      exact .done outcome
  | cached update next ih => exact .cached _ (ih _ hAdvance)
  | ask request next ih =>
      rcases hMeet : shared.store.meet request with
        ⟨failure, store⟩
      simp only [advance, hMeet] at hAdvance
      by_cases hBlocks : store.engine.blocks request = true
      · -- Only a request that is refused does not wait.
        rcases failure with _ | ⟨_ | _, error⟩
        · simp [hBlocks] at hAdvance
        · exact .ask _ (ih _ hAdvance)
        · simp [hBlocks] at hAdvance
      · rcases failure with _ | ⟨_ | _, error⟩
        all_goals
          simp only [hBlocks] at hAdvance
          exact .ask _ (ih _ hAdvance)

theorem of_done
    {given outcome : Except Error α}
    (hYields : (Program.done given).Yields outcome) :
    outcome = given := by
  cases hYields
  rfl

/- A sequence gives what its second part does. -/
theorem of_andThen
    {program : Program α}
    {next : Except Error α → Program β}
    {outcome : Except Error β}
    (hYields : (program.andThen next).Yields outcome) :
    ∃ first, program.Yields first ∧
      (next first).Yields outcome := by
  induction program with
  | done given => exact ⟨given, .done given, hYields⟩
  | ask request later ih =>
      cases hYields with
      | ask answer hNext =>
          rcases ih answer hNext with ⟨first, hFirst, hRest⟩
          exact ⟨first, .ask answer hFirst, hRest⟩
  | cached update later ih =>
      cases hYields with
      | cached caches hNext =>
          rcases ih caches hNext with ⟨first, hFirst, hRest⟩
          exact ⟨first, .cached caches hFirst, hRest⟩

/- What succeeds has succeeded in both parts. -/
theorem of_bind
    {program : Program α}
    {next : α → Program β}
    {found : β}
    (hYields : (program >>= next).Yields (.ok found)) :
    ∃ first, program.Yields (.ok first) ∧
      (next first).Yields (.ok found) := by
  rcases of_andThen hYields with ⟨first, hFirst, hRest⟩
  cases first with
  | ok first => exact ⟨first, hFirst, hRest⟩
  | error error => cases of_done hRest

end Yields

------------------------------------------------------------
-- Programs that only read
------------------------------------------------------------

/-
  If a program comes to an end, it has left the contents as
  they were, and its outcome and the caches satisfy the
  postcondition, whatever has failed.
-/
def Tells
    (contents : Contents)
    (caches : Caches)
    (program : Program α)
    (post : Except Error α → Caches → Prop) : Prop :=
  ∀ store outcome after, store.engine.contents = contents →
    program.advance ⟨store, caches⟩ =
        (.finished outcome, after) →
      after.store.engine.contents = contents ∧
        post outcome after.caches

variable {contents : Contents} {caches : Caches}

theorem tells_done
    {post : Except Error α → Caches → Prop}
    {outcome : Except Error α}
    (hPost : post outcome caches) :
    (done outcome).Tells contents caches post := by
  intro store last after hContents hEnd
  cases hEnd
  exact ⟨hContents, hPost⟩

theorem tells_check
    {post : Except Error α → Caches → Prop}
    {check : Except Error Unit}
    {next : Unit → Program α}
    (hNext : check = .ok () →
      (next ()).Tells contents caches post)
    (hError : ∀ error, post (.error error) caches) :
    (done check >>= next).Tells contents caches post := by
  cases check with
  | ok => exact hNext rfl
  | error error => exact tells_done (hError error)

theorem tells_cached
    {post : Except Error α → Caches → Prop}
    {update : Caches → Caches}
    {next : Caches → Program α}
    (hNext : (next (update caches)).Tells contents
      (update caches) post) :
    (cached update next).Tells contents caches post :=
  hNext

theorem tells_caches
    {post : Except Error α → Caches → Prop}
    {next : Caches → Program α}
    (hNext : (next caches).Tells contents caches post) :
    (Program.caches >>= next).Tells contents caches post :=
  hNext

/- What holds if a program succeeds. -/
def Told
    (good : α → Caches → Prop)
    (outcome : Except Error α)
    (kept : Caches) : Prop :=
  ∀ given, outcome = .ok given → good given kept

theorem told_error
    {good : α → Caches → Prop}
    (error : Error)
    (kept : Caches) :
    Told good (.error error) kept :=
  nofun

theorem tells_given
    {good : α → Caches → Prop}
    {given : α}
    (hGood : good given caches) :
    (done (.ok given)).Tells contents caches
      (Told good) := by
  refine tells_done fun other hSame => ?_
  cases hSame
  exact hGood

/- An answer of the store is the right one, or an error. -/
theorem tells_read
    {asked : Statement}
    {answer : asked.Answer}
    (hReads : ∀ clock,
      asked.run clock contents = .ok (answer, contents)) :
    (run asked).Tells contents caches fun outcome kept =>
      kept = caches ∧
        ∀ given, outcome = .ok given → given = answer := by
  intro store last after hContents hEnd
  have hMeet := store.engine_meet (.shared asked)
  rcases hMet : store.meet (.shared asked) with
    ⟨failure, later⟩
  rw [hMet] at hMeet
  have hSame : later.engine.contents = contents := by
    rw [hMeet, hContents]
  have hAnswer : later.engine.perform later.clock
      (.shared asked) = (.ok answer, later.engine) := by
    subst hSame
    simp only [Engine.perform, Engine.statement, hReads]
  simp only [run, request, advance, hMet] at hEnd
  by_cases hBlocks : later.engine.blocks (.shared asked) = true
  · rcases failure with _ | ⟨_ | _, error⟩
    · simp [hBlocks] at hEnd
    · cases hEnd
      refine ⟨hSame, rfl, fun given hGiven => ?_⟩
      cases hGiven
    · simp [hBlocks] at hEnd
  · rcases failure with _ | ⟨_ | _, error⟩
    all_goals
      simp only [hBlocks, Store.perform, hAnswer] at hEnd
      cases hEnd
      refine ⟨hSame, rfl, fun given hGiven => ?_⟩
      cases hGiven
    rfl

namespace Tells

theorem mono
    {program : Program α}
    {post post' : Except Error α → Caches → Prop}
    (hTells : program.Tells contents caches post)
    (hPost : ∀ outcome kept,
      post outcome kept → post' outcome kept) :
    program.Tells contents caches post' := by
  intro store outcome after hContents hEnd
  rcases hTells store outcome after hContents hEnd with
    ⟨hSame, hHolds⟩
  exact ⟨hSame, hPost outcome after.caches hHolds⟩

/- What comes next starts from the same contents. -/
theorem andThen
    {program : Program α}
    {next : Except Error α → Program β}
    {mid : Except Error α → Caches → Prop}
    {post : Except Error β → Caches → Prop}
    (hFirst : program.Tells contents caches mid)
    (hNext : ∀ outcome kept, mid outcome kept →
      (next outcome).Tells contents kept post) :
    (program.andThen next).Tells contents caches post := by
  intro store last after hContents hEnd
  rcases exists_of_advance_andThen hEnd with
    ⟨outcome, between, hBefore, hAfter⟩
  rcases hFirst store outcome between hContents hBefore with
    ⟨hSame, hMid⟩
  exact hNext outcome between.caches hMid between.store last
    after hSame hAfter

/- An error ends a sequence. -/
theorem bind
    {program : Program α}
    {next : α → Program β}
    {mid : Except Error α → Caches → Prop}
    {post : Except Error β → Caches → Prop}
    (hFirst : program.Tells contents caches mid)
    (hNext : ∀ given kept, mid (.ok given) kept →
      (next given).Tells contents kept post)
    (hError : ∀ error kept, mid (.error error) kept →
      post (.error error) kept) :
    (program >>= next).Tells contents caches post := by
  refine hFirst.andThen ?_
  rintro (error | given) kept hMid
  · exact tells_done (hError error kept hMid)
  · exact hNext given kept hMid

/- A sequence that succeeds has succeeded in both parts. -/
theorem bind_told
    {program : Program α}
    {next : α → Program β}
    {mid : α → Caches → Prop}
    {good : β → Caches → Prop}
    (hFirst : program.Tells contents caches (Told mid))
    (hNext : ∀ given kept, mid given kept →
      (next given).Tells contents kept (Told good)) :
    (program >>= next).Tells contents caches (Told good) :=
  hFirst.bind
    (fun given kept hMid => hNext given kept (hMid given rfl))
    fun error kept _ => told_error error kept

end Tells

theorem tells_read_bind
    {asked : Statement}
    {answer : asked.Answer}
    {next : asked.Answer → Program α}
    {post : Except Error α → Caches → Prop}
    (hReads : ∀ clock,
      asked.run clock contents = .ok (answer, contents))
    (hNext : (next answer).Tells contents caches post)
    (hError : ∀ error, post (.error error) caches) :
    (run asked >>= next).Tells contents caches post := by
  refine (tells_read hReads).bind ?_ ?_
  · rintro given _ ⟨rfl, hGiven⟩
    rwa [hGiven given rfl]
  · rintro error _ ⟨rfl, -⟩
    exact hError error

end Program

------------------------------------------------------------
-- Attempts
------------------------------------------------------------

/-
  Attempts that leave the caches alone when they fail tell
  what one of them does.
-/
theorem Policy.tells_run
    {α : Type}
    {contents : Contents}
    {caches : Caches}
    (policy : Policy)
    (label : String)
    {action : Program α}
    {good : α → Caches → Prop}
    (hAction : action.Tells contents caches
      fun outcome kept =>
        match outcome with
        | .ok given => good given kept
        | .error _ => kept = caches) :
    (policy.run label action).Tells contents caches
      (Program.Told good) := by
  unfold run
  induction policy.attempts - 1 with
  | zero =>
      refine hAction.andThen ?_
      rintro (error | given) kept hMid
      · simp only
        split <;> exact Program.tells_done (by nofun)
      · exact Program.tells_given hMid
  | succ further ih =>
      refine hAction.andThen ?_
      rintro (error | given) kept hMid
      · subst hMid
        simp only
        split
        · exact ih
        · exact Program.tells_done (by nofun)
      · exact Program.tells_given hMid

end SparseTables
