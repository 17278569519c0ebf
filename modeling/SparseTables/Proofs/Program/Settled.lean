import SparseTables.Proofs.Session.Dictionaries

/-
  This file gives rules for programs whose outcome is settled
  by the contents of the store, whatever the caches hold as
  long as they mirror the contents.

  The store is not to fail.  Calls that only read are settled
  by what they read, and programs that never look at the
  caches by running them once.

  Main declarations:
    * `Program.Runs.and`
    * `Program.Ensures.and`
    * `Program.Blind`
    * `Program.Blind.settles`
    * `Program.SettledAs`
    * `Program.Settled.bind`
    * `Program.Settled.created`
-/

namespace SparseTables

namespace Program

variable {α β γ : Type}

------------------------------------------------------------
-- Two facts on one run
------------------------------------------------------------

/- A program runs in one way only. -/
theorem Runs.and
    {inv inv' : Shared → Prop}
    {post post' : Except Error α → Shared → Prop}
    {program : Program α}
    {shared : Shared}
    (hRuns : program.Runs inv post shared)
    (hAlso : program.Runs inv' post' shared) :
    program.Runs inv
      (fun outcome after =>
        post outcome after ∧ post' outcome after) shared := by
  induction hRuns with
  | done hInv hPost =>
      rcases hAlso.done_or_step with
        ⟨outcome, hSame, hPost'⟩ | ⟨_, _, hStep, -⟩
      · cases hSame
        exact .done hInv ⟨hPost, hPost'⟩
      · simp [step?] at hStep
  | step hInv hStep _ ih =>
      rcases hAlso.done_or_step with
        ⟨outcome, rfl, -⟩ | ⟨later, after, hSame, hLater⟩
      · simp [step?] at hStep
      · rw [hStep] at hSame
        cases hSame
        exact .step hInv hStep (ih hLater)

/- A program ends where running it ends. -/
theorem Runs.ends
    {inv : Shared → Prop}
    {post : Except Error α → Shared → Prop}
    {program : Program α}
    {shared : Shared}
    (hRuns : program.Runs inv post shared) :
    program.Runs inv
      (fun outcome after =>
        program.advance shared = (.finished outcome, after))
      shared := by
  induction hRuns with
  | done hInv _ => exact .done hInv rfl
  | step hInv hStep _ ih =>
      rw [advance_of_step hStep]
      exact .step hInv hStep ih

section Both

variable {setup : Setup}
variable {contents : Contents} {caches : Caches}

/- What a program ensures in two ways, it ensures together. -/
theorem Ensures.and
    {program : Program α}
    {post post' : Post α}
    (hProgram : program.Ensures setup contents caches post)
    (hAlso : program.Ensures setup contents caches post') :
    program.Ensures setup contents caches
      fun outcome after caches =>
        post outcome after caches ∧
          post' outcome after caches := by
  intro faults hFaults
  refine ((hProgram faults hFaults).and
    (hAlso faults hFaults)).mono (fun _ hInv => hInv) ?_
  rintro outcome _ - ⟨⟨after, caches, faults, rfl, hWithin,
    hPost⟩, ⟨after', caches', faults', hSame, -, hPost'⟩⟩
  simp only [Setup.shared, Setup.engine, Shared.mk.injEq,
    Store.mk.injEq, Engine.mk.injEq] at hSame
  rcases hSame with ⟨⟨⟨rfl, -⟩, -, rfl⟩, rfl⟩
  exact ⟨after, caches, faults, rfl, hWithin, hPost, hPost'⟩

/- A program that ensures something comes to an end. -/
theorem Ensures.exists_end
    {program : Program α}
    {post : Post α}
    (hProgram : program.Ensures setup contents caches post) :
    ∃ outcome after caches, after.Sound ∧
      post outcome after caches := by
  have hNone : Faults.none.Within setup.trouble := by
    simp [Faults.Within, Faults.none]
  rcases (hProgram .none hNone).advance with
    ⟨outcome, _, -, hIntact, after, caches, _, rfl, -, hPost⟩
  exact ⟨outcome, after, caches, hIntact.1, hPost⟩

end Both

------------------------------------------------------------
-- Programs that do not look at the caches
------------------------------------------------------------

/- The caches are never looked at, though maybe cleared. -/
def Blind : Program α → Prop
  | done _ => True
  | ask _ next => ∀ answer, (next answer).Blind
  | cached update next =>
      (∀ caches, update caches = .empty) ∧
        (next .empty).Blind

namespace Blind

theorem andThen
    {program : Program α}
    {next : Except Error α → Program β}
    (hFirst : program.Blind)
    (hNext : ∀ outcome, (next outcome).Blind) :
    (program.andThen next).Blind := by
  induction program with
  | done outcome => exact hNext outcome
  | ask request later ih =>
      exact fun answer => ih answer (hFirst answer)
  | cached update later ih =>
      exact ⟨hFirst.1, ih .empty hFirst.2⟩

theorem bind
    {program : Program α}
    {next : α → Program β}
    (hFirst : program.Blind)
    (hNext : ∀ found, (next found).Blind) :
    (program >>= next).Blind := by
  apply hFirst.andThen
  rintro (error | found)
  · trivial
  · exact hNext found

theorem run (statement : Statement) :
    (Program.run statement).Blind :=
  fun _ => trivial

theorem runHeld (statement : Statement) :
    (Program.runHeld statement).Blind :=
  fun _ => trivial

theorem request (asked : Request) :
    (Program.request asked).Blind :=
  fun _ => trivial

theorem attempt
    {program : Program α}
    (hProgram : program.Blind) :
    program.attempt.Blind :=
  hProgram.andThen fun _ => trivial

theorem transaction
    {body : Program α}
    (hBody : body.Blind) :
    (Program.transaction body).Blind := by
  refine (request .begin).bind fun _ => ?_
  refine (attempt (hBody.bind fun _ => ?_)).bind fun _ => ?_
  · exact (request .commit).bind fun _ => trivial
  · exact (request .release).bind fun _ => trivial

theorem attempts
    (policy : Policy)
    (label : String)
    {action : Program α}
    (hAction : action.Blind) :
    (policy.run label action).Blind := by
  have hFrom (attempts further : Nat) :
      (Policy.runFrom label attempts action
        further).Blind := by
    induction further with
    | zero =>
        apply hAction.andThen
        rintro (error | found)
        · dsimp only
          split <;> trivial
        · trivial
    | succ further ih =>
        apply hAction.andThen
        rintro (error | found)
        · dsimp only
          split
          · exact ih
          · trivial
        · trivial
  exact hFrom _ _

/- The caches may be cleared at the end. -/
theorem clearing
    {program : Program α}
    {next : α → Program β}
    (hProgram : program.Blind)
    (hNext : ∀ found, (next found).Blind) :
    (do
      let found ← program
      Program.clearCaches
      next found : Program β).Blind :=
  hProgram.bind fun found => ⟨fun _ => rfl, hNext found⟩

end Blind

/-
  The stores are the same but for planned failures, which
  never happen; the caches may differ.
-/
structure Alike (left right : Shared) : Prop where
  engine : left.store.engine = right.store.engine
  clock : left.store.clock = right.store.clock
  calm : left.store.faults.Within .none
  calmToo : right.store.faults.Within .none

/- A request meets no failure when none can happen. -/
theorem meet_calm
    {store : Store}
    (hCalm : store.faults.Within .none)
    (request : Request) :
    ∃ faults : Faults, faults.Within .none ∧
      store.meet request = (none, { store with faults }) := by
  unfold Store.meet
  split
  · exact ⟨store.faults, hCalm, rfl⟩
  · rename_i kind _
    rcases Faults.meet_within hCalm kind
      (request.text store.clock) with ⟨hFailure, hLater⟩
    refine ⟨_, hLater, ?_⟩
    rcases hMeet : store.faults.meet kind
      (request.text store.clock) with ⟨_ | failure, faults⟩
    · rfl
    · rw [hMeet] at hFailure
      exact absurd (hFailure failure rfl) id

/- A step is the same on stores that are alike. -/
theorem Alike.step
    {left right after : Shared}
    (hAlike : Alike left right)
    {program later : Program α}
    (hBlind : program.Blind)
    (hStep : program.step? left = some (later, after)) :
    ∃ twin, program.step? right = some (later, twin) ∧
      Alike after twin ∧ later.Blind := by
  cases program with
  | done outcome => simp [step?] at hStep
  | cached update next =>
      simp only [step?, Option.some.injEq, Prod.mk.injEq,
        hBlind.1] at hStep ⊢
      rcases hStep with ⟨rfl, rfl⟩
      exact ⟨_, ⟨rfl, rfl⟩, { hAlike with }, hBlind.2⟩
  | ask request next =>
      rcases left with ⟨⟨engine, clock, faults⟩, caches⟩
      rcases right with ⟨⟨engine', clock', faults'⟩, caches'⟩
      rcases hAlike with ⟨rfl, rfl, hCalm, hCalmToo⟩
      rcases meet_calm hCalm request with
        ⟨met, hMet, hMeet⟩
      rcases meet_calm hCalmToo request with
        ⟨met', hMet', hMeet'⟩
      simp only [step?, hMeet, hMeet'] at hStep ⊢
      split at hStep
      · cases hStep
      · rename_i hFree
        simp only [Option.map_none] at hStep ⊢
        rw [if_neg hFree]
        cases hStep
        exact ⟨_, rfl, ⟨rfl, rfl, hMet, hMet'⟩,
          hBlind _⟩

/- A run is the same on stores that are alike. -/
theorem Runs.alike
    {start : Contents}
    {post : Except Error α → Shared → Prop}
    {program : Program α}
    {left right : Shared}
    (hRuns : program.Runs (Shared.Intact start) post left)
    (hBlind : program.Blind)
    (hAlike : Alike left right) :
    program.Runs (Shared.Intact start)
      (fun outcome after => ∃ twin,
        post outcome twin ∧ Alike twin after) right := by
  have hIntact {left right : Shared}
      (hAlike : Alike left right)
      (hLeft : Shared.Intact start left) :
      Shared.Intact start right := by
    simpa only [Shared.Intact, hAlike.engine] using hLeft
  induction hRuns generalizing right with
  | done hInv hPost =>
      exact .done (hIntact hAlike hInv) ⟨_, hPost, hAlike⟩
  | step hInv hStep _ ih =>
      rcases hAlike.step hBlind hStep with
        ⟨twin, hTwin, hLater, hRest⟩
      exact .step (hIntact hAlike hInv) hTwin
        (ih hRest hLater)

/-
  What a program does that does not look at the caches is
  settled by running it once.
-/
theorem Blind.settles
    {setup : Setup}
    {contents : Contents}
    {caches : Caches}
    {program : Program α}
    {post : Post α}
    (hBlind : program.Blind)
    (hCalm : setup.trouble = .none)
    (hEnsures : program.Ensures setup contents caches post) :
    ∃ answer target, ∀ other,
      program.Ensures setup contents other
        fun outcome after _ =>
          outcome = answer ∧ after = target := by
  have hNone : Faults.none.Within setup.trouble := by
    simp [Faults.Within, Faults.none]
  have hRuns := hEnsures .none hNone
  rcases hRuns.advance with
    ⟨answer, _, hAdvance, -, target, kept, faults, rfl, -, -⟩
  refine ⟨answer, target, fun other faults' hFaults => ?_⟩
  have hAlike : Alike
      (setup.shared contents caches .none)
      (setup.shared contents other faults') :=
    ⟨rfl, rfl, hCalm ▸ hNone, hCalm ▸ hFaults⟩
  refine (hRuns.ends.alike hBlind hAlike).mono
    (fun _ hIntact => hIntact) ?_
  rintro outcome
    ⟨⟨engine, clock, faults⟩, caches⟩ - ⟨twin, hEnd, hTwin⟩
  rw [hAdvance] at hEnd
  cases hEnd
  rcases hTwin with ⟨hEngine, hClock, -, hWithin⟩
  cases hEngine
  cases hClock
  exact ⟨target, caches, faults, rfl, hCalm ▸ hWithin, rfl,
    rfl⟩

------------------------------------------------------------
-- Settled programs
------------------------------------------------------------

/-
  Whatever the caches hold that mirror the contents, what is
  seen of the outcome is the same, and so is what is left.
-/
def SettledAs
    (seen : Except Error α → γ)
    (setup : Setup)
    (contents : Contents)
    (program : Program α) : Prop :=
  ∃ answer target, ∀ caches, caches.Mirrors contents →
    program.Ensures setup contents caches
      fun outcome after caches =>
        seen outcome = answer ∧ after = target ∧
          caches.Mirrors target

/- All of the outcome is the same. -/
abbrev Settled
    (setup : Setup)
    (contents : Contents)
    (program : Program α) : Prop :=
  program.SettledAs (fun outcome => outcome) setup contents

variable {setup : Setup} {contents : Contents}
variable {seen : Except Error β → γ}

theorem settled_done
    (hSound : contents.Sound)
    (outcome : Except Error β) :
    (done outcome).SettledAs seen setup contents :=
  ⟨seen outcome, contents, fun _ hMirrors =>
    ensures_done hSound ⟨rfl, rfl, hMirrors⟩⟩

/- A call that only reads is settled by what it reads. -/
theorem settled_of_reads
    (hCalm : setup.trouble = .none)
    {program : Program β}
    {answer : γ}
    (hReads : ∀ caches, caches.Mirrors contents →
      program.Ensures setup contents caches
        (Reads setup contents fun outcome =>
          seen outcome = answer)) :
    program.SettledAs seen setup contents := by
  refine ⟨answer, contents, fun caches hMirrors => ?_⟩
  apply (hReads caches hMirrors).mono
  rintro outcome after caches - -
    ⟨rfl, hMirrors, hSeen | ⟨hTrouble, -⟩⟩
  · exact ⟨hSeen, rfl, hMirrors⟩
  · exact absurd hCalm hTrouble

/- A program that does not look at the caches is settled. -/
theorem Blind.settled
    {program : Program α}
    (hBlind : program.Blind)
    (hCalm : setup.trouble = .none)
    (hMirrors : ∀ caches, caches.Mirrors contents →
      program.Ensures setup contents caches
        fun _ after caches => caches.Mirrors after) :
    program.Settled setup contents := by
  rcases hBlind.settles hCalm
    (hMirrors .empty (.empty contents)) with
    ⟨answer, target, hSettles⟩
  refine ⟨answer, target, fun caches hCaches => ?_⟩
  apply ((hSettles caches).and (hMirrors caches hCaches)).mono
  rintro outcome after kept - - ⟨⟨rfl, rfl⟩, hKept⟩
  exact ⟨rfl, rfl, hKept⟩

/-
  A sequence is settled if its first part is, and its second
  part whenever the first part comes to an end.
-/
theorem Settled.bind
    {program : Program α}
    {next : α → Program β}
    {mid : Post α}
    (hFirst : program.Settled setup contents)
    (hMid : ∀ caches, caches.Mirrors contents →
      program.Ensures setup contents caches mid)
    (hNext : ∀ found after caches, after.Sound →
      caches.Mirrors after → mid (.ok found) after caches →
        (next found).SettledAs seen setup after) :
    (program >>= next).SettledAs seen setup contents := by
  rcases hFirst with ⟨answer, target, hFirst⟩
  cases answer with
  | error error =>
      refine ⟨seen (.error error), target,
        fun caches hMirrors => ?_⟩
      apply (hFirst caches hMirrors).bind
      · rintro found after kept - - ⟨hWrong, -⟩
        cases hWrong
      · rintro other after kept - - ⟨hSame, hEnd⟩
        cases hSame
        exact ⟨rfl, hEnd⟩
  | ok found =>
      rcases ((hFirst .empty (.empty contents)).and (hMid
        .empty (.empty contents))).exists_end with
        ⟨_, _, kept, hSound, ⟨rfl, rfl, hKept⟩, hPost⟩
      rcases hNext found _ kept hSound hKept hPost with
        ⟨answer, final, hNext⟩
      refine ⟨answer, final, fun caches hMirrors => ?_⟩
      apply (hFirst caches hMirrors).bind
      · rintro other after caches - - ⟨hSame, rfl, hMirrors⟩
        cases hSame
        exact hNext caches hMirrors
      · rintro error after kept - - ⟨hWrong, -⟩
        cases hWrong

/- A sequence is settled if both of its parts always are. -/
theorem Settled.seq
    {program : Program α}
    {next : α → Program β}
    (hFirst : program.Settled setup contents)
    (hNext : ∀ found after, after.Sound →
      (next found).SettledAs seen setup after) :
    (program >>= next).SettledAs seen setup contents := by
  have hMid (caches : Caches)
      (hMirrors : caches.Mirrors contents) :
      program.Ensures setup contents caches
        fun _ _ _ => True := by
    rcases hFirst with ⟨answer, target, hFirst⟩
    exact (hFirst caches hMirrors).mono
      fun _ _ _ _ _ _ => trivial
  exact hFirst.bind hMid fun found after _ hSound _ _ =>
    hNext found after hSound

/- A check has one result. -/
theorem settled_check
    (hSound : contents.Sound)
    {check : Except Error α}
    {next : α → Program β}
    (hNext : ∀ found, check = .ok found →
      (next found).SettledAs seen setup contents) :
    (done check >>= next).SettledAs seen setup contents := by
  cases check with
  | ok found => exact hNext found rfl
  | error error => exact settled_done hSound (.error error)

/- What was kept does not matter once it is forgotten. -/
theorem settled_clearCaches
    (hSound : contents.Sound)
    {next : Unit → Program β}
    (hNext : (next ()).SettledAs seen setup contents) :
    (clearCaches >>= next).SettledAs seen setup
      contents := by
  rcases hNext with ⟨answer, target, hNext⟩
  exact ⟨answer, target, fun _ _ =>
    ensures_cached hSound (hNext .empty (.empty contents))⟩

/- A call goes on with the row that a search creates. -/
theorem Settled.created
    {ρ : Type}
    {find : Contents → Option ρ}
    {give : ρ → α}
    {fresh : ρ → Prop}
    {check : Except Error Unit}
    {program : Program (Option α)}
    (hSettled : program.Settled setup contents)
    (hFinds : ∀ caches, caches.Mirrors contents →
      program.Ensures setup contents caches
        (Finds setup contents check find give .create fresh))
    (what : String)
    {next : α → Program β}
    (hNext : ∀ row after, after.Sound →
      contents.Grows after → check = .ok () →
        find after = some row →
          (next (give row)).SettledAs seen setup after) :
    (program >>= fun found =>
      required what found >>= next).SettledAs seen setup
        contents := by
  refine hSettled.bind hFinds ?_
  rintro found after caches hSound -
    ⟨hSought, -, hCheck, rfl, hNone⟩
  cases hFind : find after with
  | none => simp [hFind] at hNone
  | some row =>
      exact hNext row after hSound hSought.grows hCheck hFind

/- A search that adds nothing is settled by what is there. -/
theorem settled_of_finds
    {ρ : Type}
    (hCalm : setup.trouble = .none)
    {find : Contents → Option ρ}
    {give : ρ → α}
    {intent : Intent}
    {fresh : ρ → Prop}
    {check : Except Error Unit}
    {program : Program (Option α)}
    (hFinds : ∀ caches, caches.Mirrors contents →
      program.Ensures setup contents caches
        (Finds setup contents check find give intent fresh))
    (hThere : intent = .lookup ∨ (find contents).isSome) :
    program.Settled setup contents := by
  refine ⟨check.map fun _ => (find contents).map give,
    contents, fun caches hMirrors => ?_⟩
  apply (hFinds caches hMirrors).mono
  rintro outcome after kept - - ⟨hSought, hKept, hEnd⟩
  rcases hSought.same hThere with rfl
  refine ⟨?_, rfl, hKept⟩
  cases outcome with
  | ok found =>
      rcases hEnd with ⟨rfl, rfl, -⟩
      rfl
  | error error =>
      rcases hEnd with hTrouble | rfl
      · exact absurd hCalm hTrouble
      · rfl

/-
  A search that finds nothing in the caches is settled by its
  first attempt, if that succeeds.
-/
theorem settled_first_attempt
    (policy : Policy)
    (label : String)
    (hSound : contents.Sound)
    {rest : Caches → Program α}
    {action : Program α}
    (hRest : ∀ caches, caches.Mirrors contents →
      rest caches = policy.run label action)
    {target : Contents}
    {found : α}
    (hAction : ∀ caches, caches.Mirrors contents →
      action.Ensures setup contents caches
        (Gives target found)) :
    (caches >>= rest).Settled setup contents := by
  refine ⟨.ok found, target, fun caches hMirrors => ?_⟩
  apply ensures_caches hSound
  rw [hRest caches hMirrors]
  refine policy.ensures_run label
    (fun before caches =>
      before = contents ∧ caches.Mirrors contents) ?_ hSound
    ⟨rfl, hMirrors⟩
  rintro _ caches - ⟨rfl, hMirrors⟩
  apply (hAction caches hMirrors).mono
  rintro outcome after kept - - hGiven
  cases outcome with
  | ok given => exact hGiven
  | error error =>
      rcases hGiven with ⟨hWrong, -⟩
      cases hWrong

/- A row is added where the store does not fail. -/
theorem ensures_adds
    (hFree : setup.saved = none)
    (hCalm : setup.trouble = .none)
    (hSound : contents.Sound)
    {caches : Caches}
    {asked : Statement}
    {answer : asked.Answer}
    {target : Contents}
    (hRun : asked.run setup.clock contents =
      .ok (answer, target))
    (hTarget : target.Sound)
    {next : asked.Answer → Program α}
    {post : Post α}
    (hNext : (next answer).Ensures setup target caches
      post) :
    (run asked >>= next).Ensures setup contents caches
      post := by
  refine ensures_run_bind hFree hSound ?_ ?_
    fun hTrouble => absurd hCalm hTrouble
  · intro found after hRuns
    rw [hRun] at hRuns
    cases hRuns
    exact ⟨hTarget, hNext, by simp [hCalm]⟩
  · intro error hRuns
    rw [hRun] at hRuns
    cases hRuns

end Program

end SparseTables
