import SparseTables.Proofs.Program.Ensures

/-
  This file gives one rule for each way in which a call goes
  on: after a check, after a look at the caches, and after a
  statement.

  Main declarations:
    * `Program.ensures_check`
    * `Program.ensures_required`
    * `Program.ensures_caches`
    * `Program.ensures_statement_bind`
    * `Program.ensures_run_bind`
    * `Program.ensures_read_bind`
    * `Program.ensures_runHeld_bind`
-/

namespace SparseTables

namespace Program

variable {α β : Type} {setup : Setup}
variable {contents : Contents} {caches : Caches}

------------------------------------------------------------
-- Outcomes
------------------------------------------------------------

theorem ensures_pure
    {post : Post α}
    {found : α}
    (hSound : contents.Sound)
    (hPost : post (.ok found) contents caches) :
    (pure found : Program α).Ensures setup contents caches
      post :=
  ensures_done hSound hPost

/- A result is changed, an error is not. -/
theorem Ensures.map
    {program : Program α}
    (change : α → β)
    {post : Post β}
    (hProgram : program.Ensures setup contents caches
      fun outcome => post (outcome.map change)) :
    (change <$> program).Ensures setup contents caches
      post :=
  Ensures.bind hProgram
    (fun _ _ _ hSound _ hPost => ensures_done hSound hPost)
    (fun _ _ _ _ _ hPost => hPost)

/- A call goes on if a check accepts. -/
theorem ensures_check
    (hSound : contents.Sound)
    {check : Except Error α}
    {next : α → Program β}
    {post : Post β}
    (hOk : ∀ found, check = .ok found →
      (next found).Ensures setup contents caches post)
    (hError : ∀ error, check = .error error →
      post (.error error) contents caches) :
    (done check >>= next).Ensures setup contents caches
      post := by
  cases check with
  | ok found => exact hOk found rfl
  | error error =>
      exact ensures_done hSound (hError error rfl)

/- A call goes on with what must be there. -/
theorem ensures_required
    (hSound : contents.Sound)
    (what : String)
    {found : Option α}
    {next : α → Program β}
    {post : Post β}
    (hSome : ∀ given, found = some given →
      (next given).Ensures setup contents caches post)
    (hNone : found = none →
      post (.error (.notFound what)) contents caches) :
    (required what found >>= next).Ensures setup contents
      caches post := by
  cases found with
  | none => exact ensures_done hSound (hNone rfl)
  | some given => exact hSome given rfl

------------------------------------------------------------
-- Caches
------------------------------------------------------------

/- To look at the caches changes nothing. -/
theorem ensures_caches
    (hSound : contents.Sound)
    {next : Caches → Program α}
    {post : Post α}
    (hNext : (next caches).Ensures setup contents caches
      post) :
    (Program.caches >>= next).Ensures setup contents caches
      post :=
  ensures_cached hSound hNext

------------------------------------------------------------
-- Statements
------------------------------------------------------------

/-
  A call goes on with each result of a statement.  It may
  also fail: with the statement, before it, or after it.
-/
theorem ensures_statement_bind
    (held : Bool)
    (hFree : held = false → setup.saved = none)
    (hSound : contents.Sound)
    {asked : Statement}
    {next : asked.Answer → Program α}
    {post : Post α}
    (hRun : ∀ answer after,
      asked.run setup.clock contents = .ok (answer, after) →
        after.Sound ∧
          (next answer).Ensures setup after caches post ∧
          (setup.trouble = .any →
            ∀ error, post (.error error) after caches))
    (hFails : ∀ error,
      asked.run setup.clock contents = .error error →
        post (.error error) contents caches)
    (hRefused : setup.trouble ≠ .none →
      ∀ error, post (.error error) contents caches) :
    (statement held asked >>= next).Ensures setup contents
      caches post := by
  have hFirst :
      (statement held asked).Ensures setup contents caches
        fun outcome after kept => kept = caches ∧
          match outcome with
          | .ok answer =>
              asked.run setup.clock contents =
                .ok (answer, after)
          | .error error =>
              post (.error error) after caches := by
    apply ensures_statement held hFree hSound
    intro outcome after hMay
    cases hMay with
    | answered hRuns => exact ⟨(hRun _ _ hRuns).1, rfl, hRuns⟩
    | failed hRuns => exact ⟨hSound, rfl, hFails _ hRuns⟩
    | refused hTrouble error =>
        exact ⟨hSound, rfl, hRefused hTrouble error⟩
    | lost hAny error hRuns =>
        rcases hRun _ _ hRuns with ⟨hAfter, -, hLost⟩
        exact ⟨hAfter, rfl, hLost hAny error⟩
  apply Ensures.bind hFirst
  · intro answer after _ _ _ hEnd
    rcases hEnd with ⟨rfl, hRuns⟩
    exact (hRun answer after hRuns).2.1
  · intro error after _ _ _ hEnd
    rcases hEnd with ⟨rfl, hPost⟩
    exact hPost

theorem ensures_run_bind
    (hFree : setup.saved = none)
    (hSound : contents.Sound)
    {asked : Statement}
    {next : asked.Answer → Program α}
    {post : Post α}
    (hRun : ∀ answer after,
      asked.run setup.clock contents = .ok (answer, after) →
        after.Sound ∧
          (next answer).Ensures setup after caches post ∧
          (setup.trouble = .any →
            ∀ error, post (.error error) after caches))
    (hFails : ∀ error,
      asked.run setup.clock contents = .error error →
        post (.error error) contents caches)
    (hRefused : setup.trouble ≠ .none →
      ∀ error, post (.error error) contents caches) :
    (run asked >>= next).Ensures setup contents caches
      post :=
  ensures_statement_bind false (fun _ => hFree) hSound hRun
    hFails hRefused

/- A statement that changes nothing gives its answer. -/
theorem ensures_read_bind
    (hFree : setup.saved = none)
    (hSound : contents.Sound)
    {asked : Statement}
    {answer : asked.Answer}
    (hReads : asked.run setup.clock contents =
      .ok (answer, contents))
    {next : asked.Answer → Program α}
    {post : Post α}
    (hNext : (next answer).Ensures setup contents caches
      post)
    (hRefused : setup.trouble ≠ .none →
      ∀ error, post (.error error) contents caches) :
    (run asked >>= next).Ensures setup contents caches
      post := by
  refine ensures_run_bind hFree hSound ?_ ?_ hRefused
  · intro found after hRuns
    rw [hReads] at hRuns
    cases hRuns
    exact ⟨hSound, hNext, fun hAny => hRefused (by simp [hAny])⟩
  · intro error hRuns
    rw [hReads] at hRuns
    cases hRuns

/-
  A statement of a transaction that never fails by itself and
  leaves sound contents.
-/
theorem ensures_runHeld_bind
    (hSound : contents.Sound)
    {asked : Statement}
    {answer : asked.Answer}
    {after : Contents}
    (hRuns : asked.run setup.clock contents =
      .ok (answer, after))
    (hAfter : after.Sound)
    {next : asked.Answer → Program α}
    {post : Post α}
    (hNext : (next answer).Ensures setup after caches post)
    (hError : setup.trouble ≠ .none →
      ∀ error contents, post (.error error) contents caches) :
    (runHeld asked >>= next).Ensures setup contents caches
      post := by
  refine ensures_statement_bind true
    (fun h => Bool.noConfusion h) hSound ?_ ?_
    fun hTrouble error => hError hTrouble error _
  · intro found other hRun
    rw [hRuns] at hRun
    cases hRun
    exact ⟨hAfter, hNext, fun hAny error =>
      hError (by simp [hAny]) error _⟩
  · intro error hRun
    rw [hRuns] at hRun
    cases hRun

end Program

end SparseTables
