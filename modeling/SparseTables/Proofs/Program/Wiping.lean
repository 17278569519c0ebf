import SparseTables.Proofs.Program.Ending

/-
  This file follows programs that make one statement after
  another, outside of transactions, and clear the caches at
  the end.

  A program of this form stops where a statement fails.  The
  contents are then what some of its first statements make
  of them, and it succeeds only if none has failed.

  Main declarations:
    * `Program.Candid`
    * `Program.runAll`
    * `Statement.Passes`
    * `Program.ensures_runAll`
    * `Program.clearing`
-/

namespace SparseTables

------------------------------------------------------------
-- Failures that show
------------------------------------------------------------

namespace Store

variable {store later : Store} {request : Request}

/- A request that does not fail leaves the count. -/
theorem fired_of_meet
    (hMeet : store.meet request = (none, later)) :
    later.faults.fired = store.faults.fired := by
  unfold meet Faults.meet at hMeet
  split at hMeet
  · cases hMeet
    rfl
  · rcases Prod.mk.inj hMeet with ⟨hNone, rfl⟩
    rw [hNone]
    rfl

/- What the store does leaves what is planned. -/
theorem faults_perform
    (store : Store)
    (request : Request)
    (lost : Option Error) :
    (store.perform request lost).2.faults =
      store.faults := by
  unfold perform
  dsimp only
  split <;> rfl

/- An answer that is lost is an error. -/
theorem perform_lost
    (store : Store)
    (request : Request)
    (lost : Error) :
    ∃ error, (store.perform request (some lost)).1 =
      .error error := by
  unfold perform
  cases hAnswer :
      (store.engine.perform store.clock request).1 with
  | ok answer =>
      refine ⟨lost, ?_⟩
      dsimp only
      rw [hAnswer]
  | error error =>
      refine ⟨error, ?_⟩
      dsimp only
      rw [hAnswer]

end Store

namespace Program

variable {α β : Type}

/- A sequence that finishes has finished its first part. -/
theorem exists_of_advance_andThen
    {program : Program α}
    {next : Except Error α → Program β}
    {last : Except Error β}
    {shared after : Shared}
    (hEnd : (program.andThen next).advance shared =
      (.finished last, after)) :
    ∃ outcome mid,
      program.advance shared = (.finished outcome, mid) ∧
        (next outcome).advance mid =
          (.finished last, after) := by
  induction program generalizing shared with
  | done outcome => exact ⟨outcome, shared, rfl, hEnd⟩
  | cached update later ih => exact ih _ hEnd
  | ask request later ih =>
      simp only [advance, andThen] at hEnd ⊢
      split at hEnd
      · exact ih _ hEnd
      · split at hEnd
        · cases hEnd
        · rename_i hFree
          rw [if_neg hFree]
          exact ih _ hEnd

/- A program that succeeds has met no failure. -/
def Candid (program : Program α) : Prop :=
  ∀ shared given after,
    program.advance shared = (.finished (.ok given), after) →
      after.store.faults.fired = shared.store.faults.fired

theorem candid_done (outcome : Except Error α) :
    (done outcome).Candid := by
  intro shared given after hEnd
  cases hEnd
  rfl

/- A statement that fails is the end of a program. -/
theorem candid_run_bind
    {asked : Statement}
    {next : asked.Answer → Program α}
    (hNext : ∀ answer, (next answer).Candid) :
    (run asked >>= next).Candid := by
  intro shared given after hEnd
  rcases exists_of_advance_andThen hEnd with
    ⟨outcome, mid, hAsked, hLast⟩
  cases outcome with
  | error error => cases hLast
  | ok answer =>
      have hRest := hNext answer mid given after hLast
      rw [hRest]
      simp only [run, request, advance] at hAsked
      rcases hMeet : shared.store.meet (.shared asked) with
        ⟨_ | ⟨_ | _, error⟩, store⟩
      all_goals
        rw [hMeet] at hAsked
        dsimp only at hAsked
      case ok.none =>
        split at hAsked
        · cases hAsked
        · rw [← (Prod.mk.inj hAsked).2, Store.faults_perform]
          exact Store.fired_of_meet hMeet
      case ok.some.false => cases hAsked
      case ok.some.true =>
        split at hAsked
        · cases hAsked
        · rcases store.perform_lost (.shared asked) error with
            ⟨other, hOther⟩
          simp only [Option.map_some] at hAsked
          rw [hOther] at hAsked
          cases hAsked

------------------------------------------------------------
-- Statements one after another
------------------------------------------------------------

/- Make statements whose results are not used. -/
def runAll : List Statement → Program Unit
  | [] => pure ()
  | asked :: rest => do
      let _ ← run asked
      runAll rest

/- Programs that make statements one after another. -/
theorem candid_runAll (asked : List Statement) :
    (runAll asked).Candid := by
  induction asked with
  | nil => exact candid_done _
  | cons asked rest ih => exact candid_run_bind fun _ => ih

end Program

namespace Statement

/-
  Statements are made one after another, and do not fail by
  themselves.  Whatever is left on the way is such.
-/
inductive Passes
    (clock : Clock)
    (such : Contents → Prop) :
    List Statement → Contents → Contents → Prop where
  | nil
      {contents : Contents}
      (hSuch : such contents) :
      Passes clock such [] contents contents
  | cons
      {contents mid last : Contents}
      {asked : Statement}
      {answer : asked.Answer}
      {rest : List Statement}
      (hSuch : such contents)
      (hRun : asked.run clock contents = .ok (answer, mid))
      (hRest : Passes clock such rest mid last) :
      Passes clock such (asked :: rest) contents last

namespace Passes

variable {clock : Clock} {such : Contents → Prop}
variable {asked : List Statement} {contents last : Contents}

theorem first
    (hPasses : Passes clock such asked contents last) :
    such contents := by
  cases hPasses with
  | nil hSuch => exact hSuch
  | cons hSuch _ _ => exact hSuch

theorem ending
    (hPasses : Passes clock such asked contents last) :
    such last := by
  induction hPasses with
  | nil hSuch => exact hSuch
  | cons _ _ _ ih => exact ih

theorem append
    {rest : List Statement}
    {final : Contents}
    (hPasses : Passes clock such asked contents last)
    (hRest : Passes clock such rest last final) :
    Passes clock such (asked ++ rest) contents final := by
  induction hPasses with
  | nil _ => exact hRest
  | cons hSuch hRun _ ih => exact .cons hSuch hRun (ih hRest)

end Passes

end Statement

namespace Program

variable {setup : Setup}
variable {contents last : Contents} {caches : Caches}
variable {such : Contents → Prop}

/-
  Wherever statements are stopped, what is left is what some
  of them have left, and when they are not, it is what all of
  them leave.  The caches are not touched.
-/
theorem ensures_runAll
    (hFree : setup.saved = none)
    (hSound : ∀ contents, such contents → contents.Sound)
    {asked : List Statement}
    (hPasses : Statement.Passes setup.clock such asked
      contents last) :
    (runAll asked).Ensures setup contents caches
      fun outcome after kept =>
        kept = caches ∧ such after ∧
          (outcome = .ok () → after = last) := by
  induction hPasses with
  | nil hSuch =>
      exact ensures_pure (hSound _ hSuch)
        ⟨rfl, hSuch, fun _ => rfl⟩
  | cons hSuch hRun hRest ih =>
      refine ensures_run_bind hFree (hSound _ hSuch) ?_ ?_ ?_
      · intro answer after hRuns
        rw [hRun] at hRuns
        cases hRuns
        exact ⟨hSound _ hRest.first, ih, fun _ error =>
          ⟨rfl, hRest.first, by rintro ⟨⟩⟩⟩
      · intro error hFails
        rw [hRun] at hFails
        cases hFails
      · exact fun _ error => ⟨rfl, hSuch, by rintro ⟨⟩⟩

/- When nothing fails all of the statements are made. -/
theorem ends_runAll
    {clock : Clock}
    {asked : List Statement}
    (hPasses : Statement.Passes clock such asked contents
      last) :
    (runAll asked).Ends clock (.ofContents contents) caches
      (.ok ()) (.ofContents last) caches := by
  induction hPasses with
  | nil _ => exact ends_done _
  | cons _ hRun _ ih => exact (ends_run hRun).bind ih

------------------------------------------------------------
-- Clearing the caches
------------------------------------------------------------

/- A program, and cleared caches whether it succeeds or not. -/
def clearing (program : Program Unit) : Program Unit := do
  let outcome ← program.attempt
  clearCaches
  done outcome

theorem candid_clearing
    {program : Program Unit}
    (hProgram : program.Candid) :
    program.clearing.Candid := by
  intro shared given after hEnd
  rcases exists_of_advance_andThen hEnd with
    ⟨_, mid, hAttempt, hLast⟩
  rcases exists_of_advance_andThen hAttempt with
    ⟨outcome, mid, hFirst, hGiven⟩
  cases hGiven
  cases outcome with
  | error error => cases hLast
  | ok given =>
      have hFired := hProgram shared given mid hFirst
      cases hLast
      exact hFired

theorem ensures_clearing
    {program : Program Unit}
    {post : Except Error Unit → Contents → Prop}
    (hProgram : program.Ensures setup contents caches
      fun outcome after _ => post outcome after) :
    program.clearing.Ensures setup contents caches
      fun outcome after kept =>
        kept = .empty ∧ post outcome after := by
  have hAttempt : program.attempt.Ensures setup contents caches
      fun result after _ => ∃ outcome,
        result = .ok outcome ∧ post outcome after :=
    .attempt (hProgram.mono fun outcome _ _ _ _ hPost =>
      ⟨outcome, rfl, hPost⟩)
  refine hAttempt.bind ?_ ?_
  · rintro outcome after kept hSound - ⟨_, hSame, hPost⟩
    cases hSame
    exact ensures_cached hSound
      (ensures_done hSound ⟨rfl, hPost⟩)
  · rintro error after kept - - ⟨_, hWrong, -⟩
    cases hWrong

theorem Ends.clearing
    {clock : Clock}
    {program : Program Unit}
    {outcome : Except Error Unit}
    {engine after : Engine}
    {kept : Caches}
    (hProgram : program.Ends clock engine caches outcome after
      kept) :
    program.clearing.Ends clock engine caches outcome after
      .empty :=
  hProgram.attempt.bind (ends_cached (ends_done outcome))

end Program

end SparseTables
