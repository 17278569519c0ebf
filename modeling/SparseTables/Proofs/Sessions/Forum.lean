import SparseTables.Proofs.Program.Amid
import SparseTables.Proofs.Sessions.Coherence

/-
  This file defines sessions that use a store at the same
  time.  Each has caches of its own and any number of jobs,
  and the steps of all jobs come in any order.

  A step is one request or one use of the caches.  Requests
  may fail, but then they have no effect.  If every kind of
  job does amid others what is promised of it, then that is
  all that happens to the contents, some job can always go
  on, and each ends as it should.

  Main declarations:
    * `Session.Forum`
    * `Session.Move`
    * `Session.Forum.follow`
    * `Session.Terms`
    * `Session.Forum.Along`
    * `Session.Forum.Moved`
    * `Session.Forum.Along.refuse`
    * `Session.Forum.Along.answer`
    * `Session.Forum.Along.take`
    * `Session.Forum.Along.follow`
    * `Session.Forum.Along.exists_step`
-/

namespace SparseTables

open Program

namespace Session

------------------------------------------------------------
-- Jobs
------------------------------------------------------------

/- A session is on an errand, and this is left of it. -/
structure Job where
  session : Nat
  errand : Errand
  rest : Program errand.Answer

namespace Job

/- Has the errand come to its end? -/
def isOver (job : Job) : Bool :=
  match job.rest with
  | .done _ => true
  | _ => false

/-
  Has the job committed by its next step?  A commit that fails
  leaves something to be undone.
-/
def commits (job : Job) (after : Engine) : Bool :=
  match job.rest with
  | .ask .commit _ => !after.inTransaction
  | _ => false

end Job

/-
  An errand can begin when the rows are there that it refers
  to: those whose identities are given, and the attributes
  that it is to erase.
-/
def Errand.IsReady (contents : Contents) : Errand → Prop
  | resolveAttribute tableId _ _ _ =>
      (contents.table? tableId).isSome
  | resolveItem tableId valueId _ =>
      (contents.table? tableId).isSome ∧
        (contents.value? valueId).isSome
  | call (.define request) =>
      ∀ entry ∈ request.entries, entry.2 = none →
        ∃ table ∈ contents.tables.rows,
          table.name = request.table ∧
            (contents.attributeNamed? table.id
              entry.1).isSome
  | _ => True

instance (contents : Contents) (errand : Errand) :
    Decidable (errand.IsReady contents) := by
  unfold Errand.IsReady
  split <;> infer_instance

------------------------------------------------------------
-- Moves
------------------------------------------------------------

/- What happens next. -/
inductive Move where
  /- A session begins with an errand. -/
  | start
      (session : Nat)
      (policies : Policies)
      (errand : Errand)
  /- A job takes one step. -/
  | step (index : Nat)
  | setClock (clock : Clock)

/-
  Sessions with all their jobs, and the jobs whose
  transactions were committed, in that order.
-/
structure Forum where
  circle : Circle
  jobs : List Job
  log : List Nat

namespace Forum

/- Nobody has begun anything. -/
def of (circle : Circle) : Forum :=
  ⟨circle, [], []⟩

def engine (forum : Forum) : Engine :=
  forum.circle.store.engine

/- What would be left if an open transaction was undone. -/
def committed (forum : Forum) : Contents :=
  forum.engine.committed

/- Have all jobs come to their ends? -/
def isOver (forum : Forum) : Bool :=
  forum.jobs.all Job.isOver

/- What the jobs are about. -/
def errands (forum : Forum) : List Errand :=
  forum.jobs.map Job.errand

/- A session begins. -/
def start?
    (session : Nat)
    (policies : Policies)
    (errand : Errand)
    (forum : Forum) : Option Forum :=
  if errand.IsReady forum.committed then
    some
      { forum with
        jobs := forum.jobs ++
          [⟨session, errand, errand.program policies⟩] }
  else
    none

/- A job has come so far. -/
def put
    (index : Nat)
    (forum : Forum)
    (job : Job)
    (rest : Program job.errand.Answer)
    (shared : Shared) : Forum where
  circle := forum.circle.put job.session shared
  jobs := forum.jobs.set index { job with rest }
  log :=
    if job.commits shared.store.engine then
      forum.log ++ [index]
    else
      forum.log

/- A job takes a step, unless it has to wait. -/
def step? (index : Nat) (forum : Forum) : Option Forum := do
  let job ← forum.jobs[index]?
  let (rest, shared) ←
    job.rest.step? (forum.circle.shared job.session)
  some (forum.put index job rest shared)

/- One move. -/
def take (forum : Forum) : Move → Option Forum
  | .start session policies errand =>
      forum.start? session policies errand
  | .step index => forum.step? index
  | .setClock clock =>
      some
        { forum with
          circle := forum.circle.take (.setClock clock) }

/- One move after another. -/
def follow (forum : Forum) : List Move → Option Forum
  | [] => some forum
  | move :: rest => do
      let next ← forum.take move
      next.follow rest

end Forum

------------------------------------------------------------
-- Terms
------------------------------------------------------------

/- On such terms errands are made at the same time. -/
structure Terms where
  concord : Concord
  takes : Policies → Errand → Prop
  pledge : Errand → Pledge
  /- The outcome, whether it was committed, and what is left. -/
  good : (errand : Errand) → Except Error errand.Answer →
    Bool → Contents → Prop
  good_later : ∀ {errand outcome committed before after},
    before.Widens after →
      good errand outcome committed before →
        good errand outcome committed after
  amid : ∀ {policies errand contents},
    takes policies errand → errand.IsReady contents →
      concord.such contents →
        (errand.program policies).Amid concord (pledge errand)
          (fun outcome standing => ∃ committed now,
            standing = .apart committed now ∧
              good errand outcome committed now)
          (.apart false contents)

namespace Terms

variable {terms : Terms}

/- A job that goes on as it should. -/
def Goes
    (terms : Terms)
    (job : Job)
    (standing : Standing) : Prop :=
  job.rest.Amid terms.concord (terms.pledge job.errand)
    (fun outcome standing => ∃ committed now,
      standing = .apart committed now ∧
        terms.good job.errand outcome committed now)
    standing

theorem Goes.later
    {job : Job}
    {standing now : Standing}
    (hGoes : terms.Goes job standing)
    (hBecomes : standing.Becomes now) :
    terms.Goes job now := by
  refine Amid.later hGoes hBecomes ?_
  rintro outcome ⟨committed, seen, rfl, hGood⟩
  rcases hBecomes.apart with ⟨later, rfl, hWidens⟩
  exact ⟨committed, later, rfl, terms.good_later hWidens hGood⟩

/- Is a move an errand that may be made, if it is one? -/
def Admits (terms : Terms) : Move → Prop
  | .start _ policies errand => terms.takes policies errand
  | _ => True

end Terms

------------------------------------------------------------
-- Between moves
------------------------------------------------------------

/- Nobody uses the store, and all caches mirror it. -/
structure Circle.Starts
    (concord : Concord)
    (circle : Circle) : Prop where
  free : circle.store.engine.hold = none
  faults : circle.store.faults.Within concord.trouble
  such : concord.such circle.contents
  mirrors : ∀ session,
    (circle.caches session).Mirrors circle.contents

/- A store as it can be reached, with new sessions. -/
theorem Circle.Starts.of_reachable
    {concord : Concord}
    {shared : Shared}
    (hReachable : Reachable shared)
    (hSuch : ∀ {contents : Contents},
      contents.Sound → concord.such contents)
    {faults : Faults}
    (hFaults : faults.Within concord.trouble) :
    (Circle.of (withFaults shared faults).store).Starts
      concord where
  free := hReachable.atRest.free
  faults := hFaults
  such := hSuch hReachable.atRest.sound
  mirrors _ := .empty _

namespace Forum

variable {terms : Terms} {holder : Nat}
variable {standing : Standing} {forum next : Forum}

/- Where a job stands while one stands somewhere. -/
def standingOf
    (holder : Nat)
    (standing : Standing)
    (forum : Forum)
    (index : Nat) : Standing :=
  if index = holder then standing
  else .apart (decide (index ∈ forum.log)) standing.contents

theorem contents_standingOf
    (forum : Forum)
    (holder : Nat)
    (standing : Standing)
    (index : Nat) :
    (forum.standingOf holder standing index).contents =
      standing.contents := by
  unfold standingOf
  split <;> rfl

/-
  One job at most is in a transaction: the store holds what
  that one needs, and all others are apart.  Every job goes
  on as it should, and all caches mirror what is committed.
-/
structure Along
    (terms : Terms)
    (holder : Nat)
    (standing : Standing)
    (forum : Forum) : Prop where
  faults : forum.circle.store.faults.Within
    terms.concord.trouble
  engine : forum.engine = standing.engine
  such : terms.concord.such standing.contents
  mirrors : ∀ session,
    (forum.circle.caches session).Mirrors standing.contents
  goes : ∀ index job, forum.jobs[index]? = some job →
    terms.Goes job (forum.standingOf holder standing index)
  there : standing.IsApart ∨ holder < forum.jobs.length
  logged : holder ∈ forum.log ↔ standing.hasCommitted
  known : ∀ index ∈ forum.log, index < forum.jobs.length
  once : forum.log.Nodup

/- What one move does to what is committed. -/
inductive Moved (terms : Terms) (before after : Forum) :
    Prop where
  | rests
      (hErrands : after.errands = before.errands)
      (hSame : after.committed = before.committed)
      (hLog : after.log = before.log)
  | starts
      (errand : Errand)
      (hErrands : after.errands = before.errands ++ [errand])
      (hSame : after.committed = before.committed)
      (hLog : after.log = before.log)
  | adds
      {index : Nat}
      {errand : Errand}
      (hErrand : before.errands[index]? = some errand)
      (hErrands : after.errands = before.errands)
      (hAdds : (terms.pledge errand).adds before.committed
        after.committed)
      (hLog : after.log = before.log)
  | commits
      {index : Nat}
      {errand : Errand}
      (hErrand : before.errands[index]? = some errand)
      (hErrands : after.errands = before.errands)
      (hCommits : (terms.pledge errand).commits
        before.committed after.committed)
      (hLog : after.log = before.log ++ [index])

/- No move loses a row. -/
theorem Moved.widens
    (hMoved : forum.Moved terms next) :
    forum.committed.Widens next.committed := by
  cases hMoved with
  | rests hErrands hSame hLog =>
      rw [hSame]
      exact .refl _
  | starts errand hErrands hSame hLog =>
      rw [hSame]
      exact .refl _
  | adds hErrand hErrands hAdds hLog =>
      exact (terms.pledge _).adds_widens hAdds
  | commits hErrand hErrands hCommits hLog =>
      exact (terms.pledge _).commits_widens hCommits

theorem widens_of_moves
    (hMoves : Relation.ReflTransGen (Moved terms) forum next) :
    forum.committed.Widens next.committed := by
  induction hMoves with
  | refl => exact .refl _
  | tail _ hMoved ih => exact ih.trans hMoved.widens

/- What the jobs are about does not change. -/
theorem errands_put
    {index : Nat}
    {job : Job}
    (hJob : forum.jobs[index]? = some job)
    (rest : Program job.errand.Answer)
    (shared : Shared) :
    (forum.put index job rest shared).errands =
      forum.errands := by
  have hSame : forum.errands[index]? = some job.errand := by
    rw [errands, List.getElem?_map, hJob, Option.map_some]
  rcases List.getElem?_eq_some_iff.1 hSame with
    ⟨hIndex, hErrand⟩
  rw [errands, put, List.map_set, ← errands]
  simp [← hErrand]

theorem getElem?_put
    {index : Nat}
    {job : Job}
    (hJob : forum.jobs[index]? = some job)
    {rest : Program job.errand.Answer}
    {shared : Shared}
    (other : Nat) :
    (forum.put index job rest shared).jobs[other]? =
      if index = other then some { job with rest }
      else forum.jobs[other]? := by
  have hIndex := (List.getElem?_eq_some_iff.1 hJob).1
  simp only [put, List.getElem?_set, hIndex, if_true]

namespace Along

theorem committed
    (hAlong : forum.Along terms holder standing) :
    forum.committed = standing.contents := by
  rw [Forum.committed, hAlong.engine,
    standing.committed_engine]

/- Nobody has begun anything. -/
theorem of_starts
    {circle : Circle}
    (hStarts : circle.Starts terms.concord) :
    (Forum.of circle).Along terms 0
      (.apart false circle.contents) where
  faults := hStarts.faults
  engine := by
    rcases circle with ⟨⟨⟨contents, hold⟩, clock, faults⟩, _⟩
    have hFree : hold = none := hStarts.free
    subst hFree
    rfl
  such := hStarts.such
  mirrors := hStarts.mirrors
  goes index job hJob := by simp [Forum.of] at hJob
  there := Or.inl trivial
  logged := by simp [Forum.of, Standing.hasCommitted]
  known := by simp [Forum.of]
  once := List.nodup_nil

/- While no transaction is open all jobs are apart. -/
theorem standingOf_eq
    (hAlong : forum.Along terms holder standing)
    (hApart : standing.IsApart)
    (index : Nat) :
    forum.standingOf holder standing index =
      .apart (decide (index ∈ forum.log))
        standing.contents := by
  unfold standingOf
  split
  · rename_i hHolder
    subst hHolder
    cases standing with
    | apart committed seen =>
        have hLogged := hAlong.logged
        simp only [Standing.hasCommitted] at hLogged
        simp [hLogged, Standing.contents]
    | inside | closing => cases hApart
  · rfl

/- Then any job may come next. -/
theorem pass
    (hAlong : forum.Along terms holder standing)
    (hApart : standing.IsApart)
    (index : Nat) :
    forum.Along terms index
      (.apart (decide (index ∈ forum.log))
        standing.contents) where
  faults := hAlong.faults
  engine := by
    rw [hAlong.engine]
    cases standing with
    | apart => rfl
    | inside | closing => cases hApart
  such := hAlong.such
  mirrors := hAlong.mirrors
  goes other job hJob := by
    have hGoes := hAlong.goes other job hJob
    rw [hAlong.standingOf_eq hApart] at hGoes
    unfold standingOf
    split
    · rename_i hSame
      exact hSame ▸ hGoes
    · exact hGoes
  there := Or.inl trivial
  logged := by simp [Standing.hasCommitted]
  known := hAlong.known
  once := hAlong.once

/- A job comes further, and nothing is done to the store. -/
theorem rest
    (hAlong : forum.Along terms holder standing)
    {index : Nat}
    {job : Job}
    (hJob : forum.jobs[index]? = some job)
    (rest : Program job.errand.Answer)
    {faults : Faults}
    {caches : Caches}
    (hFaults : faults.Within terms.concord.trouble)
    (hMirrors : caches.Mirrors standing.contents)
    (hRest : terms.Goes { job with rest }
      (forum.standingOf holder standing index))
    (hCommits : job.commits forum.engine = false) :
    (forum.put index job rest
      ⟨{ forum.circle.store with faults },
        caches⟩).Along terms holder standing ∧
      forum.Moved terms (forum.put index job rest
        ⟨{ forum.circle.store with faults }, caches⟩) := by
  have hLog : (forum.put index job rest
      ⟨{ forum.circle.store with faults }, caches⟩).log =
        forum.log :=
    if_neg (Bool.eq_false_iff.1 hCommits)
  refine ⟨?_, .rests (errands_put hJob _ _) rfl hLog⟩
  exact
    { faults := hFaults
      engine := hAlong.engine
      such := hAlong.such
      mirrors := by
        intro other
        by_cases hSame : other = job.session
        · subst hSame
          simpa [Forum.put] using hMirrors
        · simpa [Forum.put, Circle.caches_put_other hSame]
            using hAlong.mirrors other
      goes := by
        intro other job' hOther
        rw [standingOf, hLog, ← standingOf]
        rw [getElem?_put hJob] at hOther
        split at hOther
        · rename_i hSame
          cases hOther
          exact hSame ▸ hRest
        · exact hAlong.goes other job' hOther
      there := by simpa [Forum.put] using hAlong.there
      logged := by rw [hLog]; exact hAlong.logged
      known := by
        rw [hLog]
        simpa [Forum.put] using hAlong.known
      once := by rw [hLog]; exact hAlong.once }

/- A job uses the caches of its session. -/
theorem use
    (hAlong : forum.Along terms holder standing)
    {index : Nat}
    {session : Nat}
    {errand : Errand}
    {update : Caches → Caches}
    {go : Caches → Program errand.Answer}
    (hJob : forum.jobs[index]? =
      some ⟨session, errand, .cached update go⟩)
    (hStep : forum.step? index = some next) :
    next.Along terms holder standing ∧
      forum.Moved terms next := by
  have hStanding := hAlong.goes index _ hJob
  have hContents :=
    contents_standingOf forum holder standing index
  rcases hStanding _ (.refl _) (hContents ▸ hAlong.such)
    (forum.circle.caches session)
    (hContents ▸ hAlong.mirrors session) with ⟨hKept, hRest⟩
  rw [hContents] at hKept
  simp only [step?, hJob, Option.bind_eq_bind,
    Option.bind_some, Program.step?, Option.some.injEq]
    at hStep
  subst hStep
  exact hAlong.rest hJob _ hAlong.faults hKept hRest rfl

/- A call of a job fails, and has no effect. -/
theorem refuse
    (hAlong : forum.Along terms holder standing)
    {index : Nat}
    {session : Nat}
    {errand : Errand}
    {request : Request}
    {go : Except Error request.Answer → Program errand.Answer}
    (hJob : forum.jobs[index]? =
      some ⟨session, errand, .ask request go⟩)
    (hMay : terms.concord.MayFail)
    (hOther : request ≠ .release)
    {faults : Faults}
    (hFaults : faults.Within terms.concord.trouble)
    {error : Error}
    (hStep : (Program.ask request go).step?
        (forum.circle.shared session) =
      some (go (.error error),
        ⟨{ forum.circle.store with faults },
          forum.circle.caches session⟩)) :
    ∃ next, forum.step? index = some next ∧
      next.Along terms holder standing ∧
      forum.Moved terms next := by
  have hGoes := hAlong.goes index _ hJob
  have hContents :=
    contents_standingOf forum holder standing index
  rcases hGoes _ (.refl _) (hContents ▸ hAlong.such)
    forum.circle.store.clock with ⟨hAllows, -, -, hFails⟩
  have hCommits : Job.commits
      ⟨session, errand, .ask request go⟩ forum.engine =
        false := by
    cases request with
    | commit =>
        unfold standingOf at hAllows
        split at hAllows
        · simp [Job.commits, hAlong.engine,
            hAllows.inTransaction.1]
        · cases hAllows
    | shared | held | begin | nest | release => rfl
  refine ⟨_, ?_, hAlong.rest hJob (go (.error error)) hFaults
    (hAlong.mirrors session) (hFails hMay hOther error)
    hCommits⟩
  simp only [step?, hJob, Option.bind_eq_bind,
    Option.bind_some, hStep]

/- The job that stands somewhere stands somewhere else. -/
theorem put
    {index : Nat}
    (hAlong : forum.Along terms index standing)
    {job : Job}
    (hJob : forum.jobs[index]? = some job)
    (rest : Program job.errand.Answer)
    (store : Store)
    {later : Standing}
    (hFaults : store.faults.Within terms.concord.trouble)
    (hEngine : store.engine = later.engine)
    (hSuch : terms.concord.such later.contents)
    (hWidens : standing.contents.Widens later.contents)
    (hRest : terms.Goes { job with rest } later)
    (hLogged : later.hasCommitted ↔
      standing.hasCommitted ∨ job.commits later.engine)
    (hOnce : job.commits later.engine →
      standing.hasCommitted = false) :
    (forum.put index job rest
      ⟨store, forum.circle.caches job.session⟩).Along terms
        index later := by
  have hIndex := (List.getElem?_eq_some_iff.1 hJob).1
  have hLog (other : Nat) :
      other ∈ (forum.put index job rest
          ⟨store, forum.circle.caches job.session⟩).log ↔
        other ∈ forum.log ∨
          job.commits later.engine ∧ other = index := by
    simp only [Forum.put, hEngine]
    split <;> simp_all
  exact
    { faults := hFaults
      engine := hEngine
      such := hSuch
      mirrors := by
        intro session
        have hMirrors :=
          (hAlong.mirrors session).retains hWidens.retains
        by_cases hSame : session = job.session
        · subst hSame
          simpa [Forum.put] using hMirrors
        · simpa [Forum.put, Circle.caches_put_other hSame]
            using hMirrors
      goes := by
        intro other job' hOther
        rw [getElem?_put hJob] at hOther
        split at hOther
        · rename_i hSame
          cases hOther
          rw [standingOf, if_pos hSame.symm]
          exact hRest
        · rename_i hSame
          have hGoes := hAlong.goes other job' hOther
          rw [standingOf, if_neg (Ne.symm hSame)] at hGoes ⊢
          simp only [hLog, Ne.symm hSame, and_false, or_false]
          exact hGoes.later (.widens _ hWidens)
      there := Or.inr (by simpa [Forum.put] using hIndex)
      logged := by
        simp [hLog, hAlong.logged, hLogged]
      known := by
        intro other hOther
        simp only [Forum.put, List.length_set]
        rcases (hLog other).1 hOther with hOld | ⟨-, rfl⟩
        · exact hAlong.known other hOld
        · exact hIndex
      once := by
        simp only [Forum.put, hEngine]
        split
        · rename_i hCommits
          have hNew : index ∉ forum.log := by
            simp [hAlong.logged, hOnce hCommits]
          exact hAlong.once.append (by simp)
            (by simpa using hNew)
        · exact hAlong.once }

/- A job that may go first is answered by the store. -/
theorem answer
    {index : Nat}
    (hAlong : forum.Along terms index standing)
    {session : Nat}
    {errand : Errand}
    {request : Request}
    {go : Except Error request.Answer → Program errand.Answer}
    (hJob : forum.jobs[index]? =
      some ⟨session, errand, .ask request go⟩) :
    ∃ next, forum.step? index = some next ∧
      (∃ later, next.Along terms index later) ∧
      forum.Moved terms next := by
  have hGoes := hAlong.goes index _ hJob
  rw [standingOf, if_pos rfl] at hGoes
  rcases hGoes standing (.refl _) hAlong.such
    forum.circle.store.clock with ⟨hAllows, hAfter, hRest, -⟩
  rcases step?_ask_early terms.concord.early hAlong.faults
    (forum.circle.caches session) request go with
    ⟨faults, hFaults, ⟨hMay, hOther, error, hStep⟩ | hStep⟩
  · rcases hAlong.refuse hJob hMay hOther hFaults hStep with
      ⟨next, hNext, hThere, hMoved⟩
    exact ⟨next, hNext, ⟨_, hThere⟩, hMoved⟩
  rw [show forum.circle.store.engine = standing.engine from
    hAlong.engine, hAllows.perform.1, if_neg (by simp),
    hAllows.perform.2] at hStep
  have hCommits :
      Job.commits ⟨session, errand, .ask request go⟩
          (standing.after forum.circle.store.clock
            request).engine =
        decide (request = .commit) := by
    cases request with
    | commit => simp [Job.commits, hAllows.inTransaction.2]
    | shared | held | begin | nest | release => rfl
  have hLogged :
      (standing.after forum.circle.store.clock
          request).hasCommitted ↔
        standing.hasCommitted ∨ decide (request = .commit) := by
    rcases hAllows.changes with
      ⟨hOther, -, hSame⟩ | ⟨rfl, -, -, hThere⟩
    · simp [hOther, hSame]
    · simp [hThere]
  have hOnce : decide (request = .commit) →
      standing.hasCommitted = false := by
    rcases hAllows.changes with ⟨hOther, -⟩ | ⟨-, -, hNot, -⟩
    · simp [hOther]
    · exact fun _ => hNot
  rw [← hCommits] at hLogged hOnce
  have hNext := hAlong.put hJob
    (go (standing.engine.perform forum.circle.store.clock
      request).1)
    ⟨(standing.after forum.circle.store.clock request).engine,
      forum.circle.store.clock, faults⟩
    hFaults rfl hAfter hAllows.widens hRest hLogged hOnce
  refine ⟨_, ?_, ⟨_, hNext⟩, ?_⟩
  · simp only [step?, hJob, Option.bind_eq_bind,
      Option.bind_some, Circle.shared, hStep]
  have hErrand : forum.errands[index]? = some errand := by
    rw [errands, List.getElem?_map, hJob, Option.map_some]
  rcases hAllows.changes with
    ⟨hOther, hAdds, -⟩ | ⟨rfl, hCommit, -, -⟩
  · refine .adds hErrand (errands_put hJob _ _) ?_ ?_
    · rw [hAlong.committed, hNext.committed]
      exact hAdds
    · simp [Forum.put, hCommits, hOther]
  · refine .commits hErrand (errands_put hJob _ _) ?_ ?_
    · rw [hAlong.committed, hNext.committed]
      exact hCommit
    · simp [Forum.put, hCommits]

/- A job that asks is answered, unless it has to wait. -/
theorem ask
    (hAlong : forum.Along terms holder standing)
    {index : Nat}
    {session : Nat}
    {errand : Errand}
    {request : Request}
    {go : Except Error request.Answer → Program errand.Answer}
    (hJob : forum.jobs[index]? =
      some ⟨session, errand, .ask request go⟩)
    (hStep : forum.step? index = some next) :
    (∃ holder standing, next.Along terms holder standing) ∧
      forum.Moved terms next := by
  by_cases hHolder : index = holder
  · subst hHolder
    rcases hAlong.answer hJob with
      ⟨_, hAnswer, ⟨_, hNext⟩, hMoved⟩
    cases hStep.symm.trans hAnswer
    exact ⟨⟨_, _, hNext⟩, hMoved⟩
  rcases step?_ask_early terms.concord.early hAlong.faults
    (forum.circle.caches session) request go with
    ⟨faults, hFaults, ⟨hMay, hOther, error, hSame⟩ | hSame⟩
  · rcases hAlong.refuse hJob hMay hOther hFaults hSame with
      ⟨_, hRefused, hNext, hMoved⟩
    cases hStep.symm.trans hRefused
    exact ⟨⟨_, _, hNext⟩, hMoved⟩
  -- it asks apart, so the store is free or it has to wait
  have hGoes := hAlong.goes index _ hJob
  rw [standingOf, if_neg hHolder] at hGoes
  have hBlocks := (hGoes _ (.refl _) hAlong.such
    forum.circle.store.clock).1.blocks forum.engine
  have hApart : standing.IsApart := by
    refine Standing.isApart_of_free ?_
    rw [← hAlong.engine]
    by_contra hHeld
    have hWaits :
        forum.circle.store.engine.blocks request = true :=
      hBlocks.trans (Option.isSome_iff_ne_none.2 hHeld)
    rw [if_pos hWaits] at hSame
    simp [Forum.step?, hJob, Circle.shared, hSame] at hStep
  rcases (hAlong.pass hApart index).answer hJob with
    ⟨_, hAnswer, ⟨_, hNext⟩, hMoved⟩
  cases hStep.symm.trans hAnswer
  exact ⟨⟨_, _, hNext⟩, hMoved⟩

/- Any step goes as promised. -/
theorem step
    (hAlong : forum.Along terms holder standing)
    {index : Nat}
    (hStep : forum.step? index = some next) :
    (∃ holder standing, next.Along terms holder standing) ∧
      forum.Moved terms next := by
  cases hJob : forum.jobs[index]? with
  | none => simp [Forum.step?, hJob] at hStep
  | some job =>
      rcases job with ⟨session, errand, rest⟩
      cases rest with
      | done outcome =>
          simp [Forum.step?, hJob, Program.step?] at hStep
      | cached update go =>
          rcases hAlong.use hJob hStep with ⟨hNext, hMoved⟩
          exact ⟨⟨_, _, hNext⟩, hMoved⟩
      | ask request go => exact hAlong.ask hJob hStep

/- An errand begins on its terms. -/
theorem start
    (hAlong : forum.Along terms holder standing)
    {session : Nat}
    {policies : Policies}
    {errand : Errand}
    (hTakes : terms.takes policies errand)
    (hStart : forum.start? session policies errand =
      some next) :
    next.Along terms holder standing ∧
      forum.Moved terms next := by
  unfold start? at hStart
  split at hStart
  swap
  · cases hStart
  rename_i hReady
  cases hStart
  rw [hAlong.committed] at hReady
  have hNew : forum.jobs.length ∉ forum.log := fun hThere =>
    Nat.lt_irrefl _ (hAlong.known _ hThere)
  refine ⟨?_, .starts errand (by simp [errands]) rfl rfl⟩
  refine ⟨hAlong.faults, hAlong.engine, hAlong.such,
    hAlong.mirrors, fun index job hJob => ?_, ?_,
    hAlong.logged, fun index hIndex => ?_, hAlong.once⟩
  · rcases Nat.lt_trichotomy index forum.jobs.length with
      hOld | rfl | hBeyond
    · rw [List.getElem?_append_left hOld] at hJob
      exact hAlong.goes index job hJob
    · rw [List.getElem?_concat_length] at hJob
      cases hJob
      have hStanding : forum.standingOf holder standing
          forum.jobs.length =
            .apart false standing.contents := by
        rcases hAlong.there with hApart | hThere
        · rw [hAlong.standingOf_eq hApart,
            decide_eq_false hNew]
        · rw [standingOf, if_neg (Nat.ne_of_gt hThere),
            decide_eq_false hNew]
      change terms.Goes _ (forum.standingOf holder standing _)
      rw [hStanding]
      exact terms.amid hTakes hReady hAlong.such
    · rw [List.getElem?_eq_none (by simp; omega)] at hJob
      cases hJob
  · rcases hAlong.there with hApart | hThere
    · exact Or.inl hApart
    · exact Or.inr (by simp; omega)
  · have hOld := hAlong.known index hIndex
    simp
    omega

/- Any move goes as promised. -/
theorem take
    (hAlong : forum.Along terms holder standing)
    {move : Move}
    (hAdmits : terms.Admits move)
    (hTake : forum.take move = some next) :
    (∃ holder standing, next.Along terms holder standing) ∧
      forum.Moved terms next := by
  cases move with
  | start session policies errand =>
      rcases hAlong.start hAdmits hTake with ⟨hNext, hMoved⟩
      exact ⟨⟨_, _, hNext⟩, hMoved⟩
  | step index => exact hAlong.step hTake
  | setClock clock =>
      cases hTake
      exact ⟨⟨_, _, { hAlong with }⟩, .rests rfl rfl rfl⟩

/- And so does one move after another. -/
theorem follow
    (hAlong : forum.Along terms holder standing)
    {moves : List Move}
    (hAdmits : ∀ move ∈ moves, terms.Admits move)
    {last : Forum}
    (hFollow : forum.follow moves = some last) :
    (∃ holder standing, last.Along terms holder standing) ∧
      Relation.ReflTransGen (Moved terms) forum last := by
  induction moves generalizing forum holder standing with
  | nil =>
      cases hFollow
      exact ⟨⟨_, _, hAlong⟩, .refl⟩
  | cons move rest ih =>
      rcases Option.bind_eq_some_iff.1 hFollow with
        ⟨next, hTake, hRest⟩
      rcases hAlong.take (hAdmits move (.head _)) hTake with
        ⟨⟨_, _, hNext⟩, hMoved⟩
      rcases ih hNext
        (fun later hLater => hAdmits later (.tail _ hLater))
        hRest with ⟨hLast, hMoves⟩
      exact ⟨hLast, .head hMoved hMoves⟩

------------------------------------------------------------
-- Going on
------------------------------------------------------------

/- The job that stands somewhere goes on. -/
theorem exists_step_of_job
    {index : Nat}
    (hAlong : forum.Along terms index standing)
    {job : Job}
    (hJob : forum.jobs[index]? = some job)
    (hGoing : job.isOver = false) :
    ∃ next, forum.step? index = some next := by
  rcases job with ⟨session, errand, rest⟩
  cases rest with
  | done outcome => cases hGoing
  | cached update go =>
      simp only [Forum.step?, hJob, Program.step?,
        Option.bind_eq_bind, Option.bind_some]
      exact ⟨_, rfl⟩
  | ask request go =>
      rcases hAlong.answer hJob with ⟨next, hNext, -⟩
      exact ⟨next, hNext⟩

/- A job that is in a transaction is not over. -/
theorem isApart_of_isOver
    {index : Nat}
    (hAlong : forum.Along terms index standing)
    {job : Job}
    (hJob : forum.jobs[index]? = some job)
    (hOver : job.isOver) :
    standing.IsApart := by
  have hGoes := hAlong.goes index job hJob
  rw [standingOf, if_pos rfl] at hGoes
  rcases job with ⟨session, errand, rest⟩
  cases rest with
  | done outcome =>
      rcases hGoes with ⟨committed, now, rfl, -⟩
      trivial
  | cached | ask => cases hOver

/- Some job can go on until all are over. -/
theorem exists_step
    (hAlong : forum.Along terms holder standing)
    (hGoing : forum.isOver = false) :
    ∃ index next, forum.step? index = some next := by
  rcases List.all_eq_false.1 hGoing with ⟨job, hMem, hNot⟩
  by_cases hApart : standing.IsApart
  · rcases List.getElem?_of_mem hMem with ⟨index, hJob⟩
    exact ⟨index, (hAlong.pass hApart index).exists_step_of_job
      hJob (by simpa using hNot)⟩
  · have hThere := hAlong.there.resolve_left hApart
    refine ⟨holder, hAlong.exists_step_of_job
      (List.getElem?_eq_getElem hThere) ?_⟩
    by_contra hOver
    exact hApart (hAlong.isApart_of_isOver
      (List.getElem?_eq_getElem hThere) (by simpa using hOver))

/- What is left when all are over. -/
theorem isApart
    (hAlong : forum.Along terms holder standing)
    (hOver : forum.isOver) :
    standing.IsApart := by
  refine hAlong.there.elim id fun hThere => ?_
  exact hAlong.isApart_of_isOver
    (List.getElem?_eq_getElem hThere)
    (List.all_eq_true.1 hOver _ (List.getElem_mem hThere))

/- Nobody holds the store then. -/
theorem contents_of_isOver
    (hAlong : forum.Along terms holder standing)
    (hOver : forum.isOver) :
    forum.circle.contents = forum.committed := by
  have hApart := hAlong.isApart hOver
  rw [hAlong.committed, Circle.contents,
    show forum.circle.store.engine = _ from hAlong.engine]
  cases standing with
  | apart => rfl
  | inside | closing => cases hApart

/- What has come of a job that is over. -/
theorem good
    (hAlong : forum.Along terms holder standing)
    {index : Nat}
    {session : Nat}
    {errand : Errand}
    {outcome : Except Error errand.Answer}
    (hJob : forum.jobs[index]? =
      some ⟨session, errand, .done outcome⟩) :
    terms.good errand outcome (decide (index ∈ forum.log))
      forum.committed := by
  rcases hAlong.goes index _ hJob with
    ⟨committed, now, hStanding, hGood⟩
  have hSame : forum.standingOf holder standing index =
      .apart (decide (index ∈ forum.log))
        standing.contents := by
    by_cases hHolder : index = holder
    · rw [standingOf, if_pos hHolder] at hStanding
      exact hAlong.standingOf_eq (hStanding ▸ trivial) index
    · rw [standingOf, if_neg hHolder]
  rw [hSame] at hStanding
  cases hStanding
  rw [hAlong.committed]
  exact hGood

end Along

end Forum

end Session

end SparseTables
