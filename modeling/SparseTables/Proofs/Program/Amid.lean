import SparseTables.Proofs.Contents.Entries
import SparseTables.Proofs.Program.Settled
import SparseTables.Proofs.Tasks.Calls

/-
  This file gives rules for programs that run amid others on
  a store that loses no rows.  Calls of the store may fail,
  but then they have no effect.

  Whatever the others add in between, a program does to the
  store only what is promised of it, and keeps in the caches
  only rows of the store.  Within its transaction a program
  has the store for itself.

  Main declarations:
    * `Standing`
    * `Concord`
    * `Pledge`
    * `Program.Amid`
    * `Program.Amid.andThen`
    * `Program.Amid.later`
    * `Program.Concluded`
    * `Program.amid_transaction`
-/

namespace SparseTables

------------------------------------------------------------
-- Standings
------------------------------------------------------------

/- How far a program is, and what is in the store for it. -/
inductive Standing where
  /- It is in no transaction.  Has it committed one? -/
  | apart (committed : Bool) (seen : Contents)
  /- It is in a transaction that began with some contents. -/
  | inside (saved now : Contents)
  /- It has committed, and has to release the store. -/
  | closing (now : Contents)

namespace Standing

/- The store for a program at that point. -/
def engine : Standing → Engine
  | apart _ seen => .ofContents seen
  | inside saved now => ⟨now, some ⟨0, some saved⟩⟩
  | closing now => ⟨now, some ⟨0, none⟩⟩

/- What is committed then. -/
def contents : Standing → Contents
  | apart _ seen => seen
  | inside saved _ => saved
  | closing now => now

/- Has the program committed? -/
def hasCommitted : Standing → Bool
  | apart committed _ => committed
  | inside _ _ => false
  | closing _ => true

/- Is the program in no transaction? -/
def IsApart : Standing → Prop
  | apart _ _ => True
  | _ => False

/- What becomes of it by a request. -/
def after (clock : Clock) : Standing → Request → Standing
  | apart committed seen, .shared asked =>
      apart committed
        ((Engine.ofContents seen).statement clock
          asked).2.contents
  | apart _ seen, .begin => inside seen seen
  | inside saved now, .held asked =>
      inside saved
        ((Engine.ofContents now).statement clock
          asked).2.contents
  | inside _ now, .commit => closing now
  | inside saved _, .release => apart false saved
  | closing now, .release => apart true now
  | standing, _ => standing

/- What becomes of it by others: they only add rows. -/
inductive Becomes : Standing → Standing → Prop where
  | refl (standing : Standing) : Becomes standing standing
  | widens
      (committed : Bool)
      {seen now : Contents}
      (hWidens : seen.Widens now) :
      Becomes (apart committed seen) (apart committed now)

theorem Becomes.trans
    {first second third : Standing}
    (hFirst : first.Becomes second)
    (hSecond : second.Becomes third) :
    first.Becomes third := by
  cases hFirst with
  | refl => exact hSecond
  | widens committed hWidens =>
      cases hSecond with
      | refl => exact .widens committed hWidens
      | widens _ hMore =>
          exact .widens committed (hWidens.trans hMore)

/- Who is apart stays apart. -/
theorem Becomes.apart
    {committed : Bool}
    {seen : Contents}
    {later : Standing}
    (hBecomes : (Standing.apart committed seen).Becomes
      later) :
    ∃ now, later = .apart committed now ∧
      seen.Widens now := by
  cases hBecomes with
  | refl => exact ⟨seen, rfl, .refl seen⟩
  | widens _ hWidens => exact ⟨_, rfl, hWidens⟩

theorem committed_engine (standing : Standing) :
    standing.engine.committed = standing.contents := by
  cases standing <;> rfl

/- The store is free for a program that is apart. -/
theorem isApart_of_free
    {standing : Standing}
    (hFree : standing.engine.hold = none) :
    standing.IsApart := by
  cases standing with
  | apart => trivial
  | inside | closing => cases hFree

end Standing

------------------------------------------------------------
-- What is promised
------------------------------------------------------------

/-
  What holds of the contents whenever one may look, and how
  calls may go wrong.
-/
structure Concord where
  such : Contents → Prop
  keyed : ∀ {contents}, such contents → contents.Keyed
  trouble : Trouble
  early : trouble ≠ .any

/- May calls fail? -/
def Concord.MayFail (concord : Concord) : Prop :=
  concord.trouble ≠ .none

/-
  What a program may do to the contents, by one statement or
  by its transaction as a whole.
-/
structure Pledge where
  adds : Contents → Contents → Prop
  commits : Contents → Contents → Prop
  stays : ∀ contents, adds contents contents
  adds_widens : ∀ {before after},
    adds before after → before.Widens after
  commits_widens : ∀ {before after},
    commits before after → before.Widens after

/-
  What a program may ask for.  It commits one transaction
  at most.
-/
def Standing.Allows
    (pledge : Pledge)
    (clock : Clock) : Standing → Request → Prop
  | apart committed seen, .shared asked =>
      pledge.adds seen
        (Standing.after clock (apart committed seen)
          (.shared asked)).contents
  | apart committed _, .begin => committed = false
  | inside _ _, .held _ => True
  | inside saved now, .commit => pledge.commits saved now
  | inside _ _, .release => True
  | closing _, .release => True
  | _, _ => False

/- What is allowed need not wait. -/
theorem Standing.Allows.perform
    {pledge : Pledge}
    {clock : Clock}
    {standing : Standing}
    {request : Request}
    (hAllows : standing.Allows pledge clock request) :
    standing.engine.blocks request = false ∧
      (standing.engine.perform clock request).2 =
        (standing.after clock request).engine := by
  cases standing with
  | apart committed seen =>
      cases request with
      | shared asked =>
          refine ⟨rfl, ?_⟩
          simp only [Engine.perform, engine, after,
            Engine.statement, Engine.ofContents]
          split <;> rfl
      | begin => exact ⟨rfl, rfl⟩
      | held | nest | commit | release => cases hAllows
  | inside saved now =>
      cases request with
      | held asked =>
          refine ⟨rfl, ?_⟩
          simp only [Engine.perform, engine, after,
            Engine.statement, Engine.ofContents]
          split <;> rfl
      | commit | release => exact ⟨rfl, rfl⟩
      | shared | begin | nest => cases hAllows
  | closing now =>
      cases request with
      | release => exact ⟨rfl, rfl⟩
      | shared | held | begin | nest | commit => cases hAllows

namespace Standing.Allows

variable {pledge : Pledge} {clock : Clock}
variable {standing : Standing} {request : Request}

/- A commit is the only request that is told of. -/
theorem changes
    (hAllows : standing.Allows pledge clock request) :
    (request ≠ .commit ∧
      pledge.adds standing.contents
        (standing.after clock request).contents ∧
      (standing.after clock request).hasCommitted =
        standing.hasCommitted) ∨
    (request = .commit ∧
      pledge.commits standing.contents
        (standing.after clock request).contents ∧
      standing.hasCommitted = false ∧
      (standing.after clock request).hasCommitted) := by
  cases standing with
  | apart committed seen =>
      cases request with
      | shared asked =>
          exact Or.inl ⟨nofun, hAllows, rfl⟩
      | begin =>
          exact Or.inl ⟨nofun, pledge.stays _,
            Eq.symm hAllows⟩
      | held | nest | commit | release => cases hAllows
  | inside saved now =>
      cases request with
      | held | release =>
          exact Or.inl ⟨nofun, pledge.stays _, rfl⟩
      | commit => exact Or.inr ⟨rfl, hAllows, rfl, rfl⟩
      | shared | begin | nest => cases hAllows
  | closing now =>
      cases request with
      | release =>
          exact Or.inl ⟨nofun, pledge.stays _, rfl⟩
      | shared | held | begin | nest | commit => cases hAllows

/- A commit leaves nothing to be committed. -/
theorem inTransaction
    (hAllows : standing.Allows pledge clock .commit) :
    standing.engine.inTransaction ∧
      (standing.after clock .commit).engine.inTransaction =
        false := by
  cases standing with
  | inside => exact ⟨rfl, rfl⟩
  | apart | closing => cases hAllows

/- What is allowed apart waits for those who are not. -/
theorem blocks
    {committed : Bool}
    {seen : Contents}
    (hAllows : (Standing.apart committed seen).Allows pledge
      clock request)
    (engine : Engine) :
    engine.blocks request = engine.hold.isSome := by
  cases request with
  | shared | begin => rfl
  | held | nest | commit | release => cases hAllows

/- The store loses nothing by it. -/
theorem widens
    (hAllows : standing.Allows pledge clock request) :
    standing.contents.Widens
      (standing.after clock request).contents := by
  rcases hAllows.changes with
    ⟨-, hAdds, -⟩ | ⟨-, hCommits, -⟩
  · exact pledge.adds_widens hAdds
  · exact pledge.commits_widens hCommits

end Standing.Allows

------------------------------------------------------------
-- Programs amid others
------------------------------------------------------------

namespace Program

variable {α β : Type} {concord : Concord} {pledge : Pledge}

/-
  A call fails without effect, or the store does what it is
  asked for.
-/
theorem step?_ask_early
    {trouble : Trouble}
    (hEarly : trouble ≠ .any)
    {store : Store}
    (hFaults : store.faults.Within trouble)
    (caches : Caches)
    (request : Request)
    (next : Except Error request.Answer → Program α) :
    ∃ faults : Faults, faults.Within trouble ∧
      ((trouble ≠ .none ∧ request ≠ .release ∧ ∃ error,
        (ask request next).step? ⟨store, caches⟩ =
          some (next (.error error),
            ⟨{ store with faults }, caches⟩)) ∨
      (ask request next).step? ⟨store, caches⟩ =
        if store.engine.blocks request then none
        else some
          (next (store.engine.perform store.clock request).1,
            ⟨⟨(store.engine.perform store.clock request).2,
              store.clock, faults⟩, caches⟩)) := by
  cases hKind : store.engine.kind? request with
  | none =>
      refine ⟨store.faults, hFaults, Or.inr ?_⟩
      simp only [step?, Store.meet, hKind, Option.map_none]
      rfl
  | some kind =>
      rcases Faults.meet_within hFaults kind
        (request.text store.clock) with ⟨hFailure, hLater⟩
      refine ⟨_, hLater, ?_⟩
      cases hMeet : (store.faults.meet kind
        (request.text store.clock)).1 with
      | none =>
          refine Or.inr ?_
          simp only [step?, Store.meet, hKind, hMeet,
            Option.map_none]
          rfl
      | some failure =>
          rcases failure with ⟨late, error⟩
          have hWithin := hFailure _ hMeet
          refine Or.inl ⟨?_, ?_, error, ?_⟩
          · rintro rfl
            exact hWithin
          · rintro rfl
            cases hKind
          · have hLate : late = false := by
              cases trouble with
              | none => exact hWithin.elim
              | early => exact hWithin
              | any => exact absurd rfl hEarly
            simp only [step?, Store.meet, hKind, hMeet, hLate]

/-
  Whatever others do before each step, a program does only
  what is promised, and its caches go on to mirror what is
  committed.
-/
def Amid
    (concord : Concord)
    (pledge : Pledge)
    (post : Except Error α → Standing → Prop) :
    Program α → Standing → Prop
  | done outcome, standing => post outcome standing
  | cached update next, standing =>
      ∀ later, standing.Becomes later →
        concord.such later.contents →
          ∀ caches : Caches, caches.Mirrors later.contents →
            (update caches).Mirrors later.contents ∧
              (next (update caches)).Amid concord pledge post
                later
  | ask request next, standing =>
      ∀ later, standing.Becomes later →
        concord.such later.contents →
          ∀ clock, later.Allows pledge clock request ∧
            concord.such (later.after clock request).contents ∧
            (next (later.engine.perform clock
              request).1).Amid concord pledge post
                (later.after clock request) ∧
            (concord.MayFail → request ≠ .release →
              ∀ error, (next (.error error)).Amid concord
                pledge post later)

namespace Amid

variable {post post' : Except Error α → Standing → Prop}
variable {program : Program α} {standing : Standing}

theorem mono
    (hAmid : program.Amid concord pledge post standing)
    (hPost : ∀ outcome standing, post outcome standing →
      post' outcome standing) :
    program.Amid concord pledge post' standing := by
  induction program generalizing standing with
  | done outcome => exact hPost _ _ hAmid
  | cached update next ih =>
      intro later hLater hSuch caches hMirrors
      rcases hAmid later hLater hSuch caches hMirrors with
        ⟨hKept, hNext⟩
      exact ⟨hKept, ih _ hNext⟩
  | ask request next ih =>
      intro later hLater hSuch clock
      rcases hAmid later hLater hSuch clock with
        ⟨hAllows, hAfter, hNext, hFails⟩
      exact ⟨hAllows, hAfter, ih _ hNext,
        fun hMay hOther error =>
          ih _ (hFails hMay hOther error)⟩

theorem andThen
    {next : Except Error α → Program β}
    {last : Except Error β → Standing → Prop}
    (hFirst : program.Amid concord pledge post standing)
    (hNext : ∀ outcome standing, post outcome standing →
      (next outcome).Amid concord pledge last standing) :
    (program.andThen next).Amid concord pledge last
      standing := by
  induction program generalizing standing with
  | done outcome => exact hNext _ _ hFirst
  | cached update go ih =>
      intro later hLater hSuch caches hMirrors
      rcases hFirst later hLater hSuch caches hMirrors with
        ⟨hKept, hRest⟩
      exact ⟨hKept, ih _ hRest⟩
  | ask request go ih =>
      intro later hLater hSuch clock
      rcases hFirst later hLater hSuch clock with
        ⟨hAllows, hAfter, hRest, hFails⟩
      exact ⟨hAllows, hAfter, ih _ hRest,
        fun hMay hOther error =>
          ih _ (hFails hMay hOther error)⟩

/- Others may go on in the meantime. -/
theorem later
    {now : Standing}
    (hAmid : program.Amid concord pledge post standing)
    (hBecomes : standing.Becomes now)
    (hPost : ∀ outcome, post outcome standing →
      post outcome now) :
    program.Amid concord pledge post now := by
  cases program with
  | done outcome => exact hPost outcome hAmid
  | cached update next =>
      exact fun later hLater =>
        hAmid later (hBecomes.trans hLater)
  | ask request next =>
      exact fun later hLater =>
        hAmid later (hBecomes.trans hLater)

end Amid

------------------------------------------------------------
-- Transactions
------------------------------------------------------------

/- It has committed if it succeeds, and only then. -/
def Concluded
    (outcome : Except Error α)
    (standing : Standing) : Prop :=
  ∃ committed now, standing = .apart committed now ∧
    (committed ↔ ∃ given, outcome = .ok given)

/- It can commit if it succeeds. -/
def Prepares
    (concord : Concord)
    (pledge : Pledge)
    (saved : Contents)
    (outcome : Except Error α)
    (standing : Standing) : Prop :=
  ∃ now, standing = .inside saved now ∧
    ∀ given, outcome = .ok given →
      pledge.commits saved now ∧ concord.such now

/- A statement within a transaction, and what follows it. -/
theorem amid_held_bind
    {asked : Statement}
    {next : asked.Answer → Program α}
    {saved now : Contents}
    (hNext : ∀ clock, ∃ answer after,
      asked.run clock now = .ok (answer, after) ∧
        (next answer).Amid concord pledge
          (Prepares concord pledge saved)
          (.inside saved after)) :
    (runHeld asked >>= next).Amid concord pledge
      (Prepares concord pledge saved)
      (.inside saved now) := by
  intro later hLater hSuch clock
  cases hLater
  rcases hNext clock with ⟨answer, after, hRun, hRest⟩
  refine ⟨trivial, hSuch, ?_,
    fun _ _ _ => ⟨now, rfl, by rintro _ ⟨⟩⟩⟩
  simp only [Standing.after, Standing.engine, Engine.perform,
    Engine.statement, Engine.ofContents, hRun]
  exact hRest

/- A transaction that fails is undone. -/
theorem amid_release
    (outcome : Except Error α)
    (saved now : Contents)
    (hFails : ¬∃ given, outcome = .ok given) :
    (do
      request .release
      done outcome : Program α).Amid concord pledge Concluded
        (.inside saved now) := by
  intro later hLater hSuch clock
  cases hLater
  exact ⟨trivial, hSuch, ⟨false, saved, rfl, by simpa using
    hFails⟩, fun _ hOther => absurd rfl hOther⟩

/-
  A transaction whose body succeeds is committed, and it is
  released in any case.
-/
theorem amid_transaction
    {seen : Contents}
    {body : Program α}
    (hBody : ∀ now, seen.Widens now → concord.such now →
      body.Amid concord pledge (Prepares concord pledge now)
        (.inside now now)) :
    (transaction body).Amid concord pledge Concluded
      (.apart false seen) := by
  intro later hLater hSuch clock
  rcases hLater.apart with ⟨now, rfl, hWidens⟩
  refine ⟨rfl, hSuch, ?_,
    fun _ _ _ => ⟨false, now, rfl, by simp⟩⟩
  change ((body.andThen _).andThen _ |>.andThen _).Amid
    concord pledge _ (.inside now now)
  rw [andThen_andThen, andThen_andThen]
  refine (hBody now hWidens hSuch).andThen ?_
  rintro (error | given) _ ⟨last, rfl, hReady⟩
  · exact amid_release (.error error) now last (by simp)
  rcases hReady given rfl with ⟨hCommits, hLast⟩
  -- the commit, which may fail
  intro later hLater hNow clock
  cases hLater
  refine ⟨hCommits, hLast, ?_, fun _ _ error =>
    amid_release (.error error) now last (by simp)⟩
  -- the release
  intro later hLater hNow clock
  cases hLater
  exact ⟨trivial, hLast, ⟨true, last, rfl, by simp⟩,
    fun _ hOther => absurd rfl hOther⟩

end Program

end SparseTables
