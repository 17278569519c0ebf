import SparseTables.Proofs.Session.Outcomes
import SparseTables.Proofs.Session.Settled

/-
  This file compares a session that clears its caches before
  some of its calls with one that does not: while the store
  does not fail, nobody can tell them apart by what the calls
  answer or by what is in the store at the end.

  Main declarations:
    * `Session.Turn`
    * `Session.Answered`
    * `Session.play`
    * `Session.Peers`
    * `Session.Peers.playTurn`
    * `Session.clearing_is_unseen`
-/

namespace SparseTables

namespace Session

------------------------------------------------------------
-- Sequences of calls
------------------------------------------------------------

/- A call, the time it is made at, and what comes before. -/
structure Turn where
  clock : Clock
  call : Call
  /- Are the caches cleared before the call? -/
  clears : Bool

/- A call and how far it came. -/
structure Answered where
  call : Call
  progress : Progress call.Answer

namespace Answered

/- What is seen of the outcome, if there is one. -/
def seen (answered : Answered) :
    Option ((call : Call) × Except Error call.Answer) :=
  match answered.progress with
  | .finished outcome =>
      some ⟨answered.call, answered.call.seen outcome⟩
  | .waiting _ => none

/- Did the call come to its end? -/
def isFinished (answered : Answered) : Bool :=
  match answered.progress with
  | .finished _ => true
  | .waiting _ => false

end Answered

/- The same call without clearing the caches. -/
def Turn.keeping (turn : Turn) : Turn :=
  { turn with clears := false }

/- Where a call begins. -/
def Turn.start (turn : Turn) (shared : Shared) : Shared :=
  withClock
    (if turn.clears then
      { shared with caches := .empty }
    else
      shared)
    turn.clock

/- Make a call. -/
def playTurn
    (policies : Policies)
    (turn : Turn)
    (shared : Shared) : Answered × Shared :=
  let (progress, after) :=
    (turn.call.program policies).advance (turn.start shared)
  (⟨turn.call, progress⟩, after)

theorem playTurn_eq
    {policies : Policies}
    {turn : Turn}
    {shared after : Shared}
    {outcome : Except Error turn.call.Answer}
    (hAdvance : (turn.call.program policies).advance
      (turn.start shared) = (.finished outcome, after)) :
    playTurn policies turn shared =
      (⟨turn.call, .finished outcome⟩, after) := by
  simp only [playTurn, hAdvance]

/- Make one call after another. -/
def play (policies : Policies) :
    List Turn → Shared → List Answered × Shared
  | [], shared => ([], shared)
  | turn :: rest, shared =>
      let (answered, after) := playTurn policies turn shared
      let (more, last) := play policies rest after
      (answered :: more, last)

------------------------------------------------------------
-- Sessions that differ in their caches
------------------------------------------------------------

/- Between calls, and no failures are to come. -/
structure Quiet (shared : Shared) : Prop where
  rest : AtRest shared
  calm : shared.store.faults.Within .none

/- Stores with the same contents, between calls. -/
structure Peers (left right : Shared) : Prop where
  quiet : Quiet left
  quietToo : Quiet right
  same : left.contents = right.contents

theorem quiet_calm
    {shared : Shared}
    (hRest : AtRest shared) :
    Quiet (calm shared) :=
  ⟨atRest_calm hRest, by
    simp [calm, withFaults, Faults.none, Faults.Within]⟩

theorem Quiet.start
    {shared : Shared}
    (hQuiet : Quiet shared)
    (turn : Turn) :
    Quiet (turn.start shared) := by
  unfold Turn.start
  split
  · exact ⟨{ hQuiet.rest with mirrors := .empty _ },
      hQuiet.calm⟩
  · exact ⟨{ hQuiet.rest with }, hQuiet.calm⟩

@[simp] theorem Turn.contents_start
    (turn : Turn)
    (shared : Shared) :
    (turn.start shared).contents = shared.contents := by
  unfold Turn.start
  split <;> rfl

/- A settled call ends as it is settled to. -/
theorem Quiet.advance
    {α γ : Type}
    {shared : Shared}
    (hQuiet : Quiet shared)
    {clock : Clock}
    (hClock : shared.store.clock = clock)
    {contents : Contents}
    (hContents : shared.contents = contents)
    {seen : Except Error α → γ}
    {answer : γ}
    {target : Contents}
    {program : Program α}
    (hSettles : ∀ caches, caches.Mirrors contents →
      program.Ensures (.free clock .none) contents caches
        fun outcome after caches =>
          seen outcome = answer ∧ after = target ∧
            caches.Mirrors target) :
    ∃ outcome after,
      program.advance shared = (.finished outcome, after) ∧
        seen outcome = answer ∧ after.contents = target ∧
        Quiet after := by
  subst hClock hContents
  have hRuns := hSettles shared.caches hQuiet.rest.mirrors
    shared.store.faults hQuiet.calm
  rw [Shared.contents, ← hQuiet.rest.eq_shared] at hRuns
  rcases hRuns.advance with
    ⟨outcome, _, hAdvance, hIntact, after, caches, faults,
      rfl, hWithin, hSeen, rfl, hMirrors⟩
  exact ⟨outcome, _, hAdvance, hSeen, rfl,
    ⟨rfl, hIntact.1, hMirrors⟩, hWithin⟩

/- Nobody can tell by one call whether it cleared. -/
theorem Peers.playTurn
    {left right : Shared}
    (hPeers : Peers left right)
    (policies : Policies)
    {turn : Turn}
    (hTurn : ¬turn.call.IsSummary) :
    (playTurn policies turn left).1.isFinished ∧
      (playTurn policies turn left).1.seen =
        (playTurn policies turn.keeping right).1.seen ∧
      Peers (playTurn policies turn left).2
        (playTurn policies turn.keeping right).2 := by
  have hSound := hPeers.quiet.rest.sound
  have hFree : (Setup.free turn.clock .none).saved = none :=
    rfl
  rcases turn.call.settled hFree rfl hSound policies hTurn
    with ⟨answer, target, hSettles⟩
  rcases (hPeers.quiet.start turn).advance rfl
    (turn.contents_start left) hSettles with
    ⟨outcome, after, hLeft, hSeen, hTarget, hAfter⟩
  rcases (hPeers.quietToo.start turn.keeping).advance rfl
    ((turn.keeping.contents_start right).trans
      hPeers.same.symm) hSettles with
    ⟨other, twin, hRight, hSeenToo, hTargetToo, hTwin⟩
  have hPlayed : Session.playTurn policies turn left =
      (⟨turn.call, .finished outcome⟩, after) :=
    playTurn_eq hLeft
  have hPlayedToo :
      Session.playTurn policies turn.keeping right =
        (⟨turn.call, .finished other⟩, twin) :=
    playTurn_eq hRight
  rw [hPlayed, hPlayedToo]
  refine ⟨rfl, ?_, hAfter, hTwin, hTarget.trans
    hTargetToo.symm⟩
  simp only [Answered.seen, hSeen, hSeenToo]

/- Nor by the calls of a whole session. -/
theorem Peers.play
    {left right : Shared}
    (hPeers : Peers left right)
    (policies : Policies)
    {turns : List Turn}
    (hTurns : ∀ turn ∈ turns, ¬turn.call.IsSummary) :
    (∀ answered ∈ (play policies turns left).1,
      answered.isFinished) ∧
      (play policies turns left).1.map Answered.seen =
        (play policies (turns.map Turn.keeping)
          right).1.map Answered.seen ∧
      Peers (play policies turns left).2
        (play policies (turns.map Turn.keeping) right).2 := by
  induction turns generalizing left right with
  | nil => exact ⟨by simp [Session.play], rfl, hPeers⟩
  | cons turn rest ih =>
      rcases List.forall_mem_cons.1 hTurns with
        ⟨hTurn, hRest⟩
      rcases hPeers.playTurn policies hTurn with
        ⟨hEnds, hSeen, hAfter⟩
      rcases ih hAfter hRest with
        ⟨hMoreEnd, hMoreSeen, hLast⟩
      refine ⟨List.forall_mem_cons.2 ⟨hEnds, hMoreEnd⟩,
        ?_, hLast⟩
      simp only [List.map_cons, Session.play]
      rw [hSeen, hMoreSeen]

/-
  At any time in the history of a store, clearing the caches
  before some calls changes neither what is seen of an answer
  nor the contents at the end, while the store does not fail.
  All calls come to an end.
-/
theorem clearing_is_unseen
    {shared : Shared}
    (hReachable : Reachable shared)
    (policies : Policies)
    {turns : List Turn}
    (hTurns : ∀ turn ∈ turns, ¬turn.call.IsSummary) :
    (∀ answered ∈ (play policies turns (calm shared)).1,
      answered.isFinished) ∧
      (play policies turns (calm shared)).1.map
          Answered.seen =
        (play policies (turns.map Turn.keeping)
          (calm shared)).1.map Answered.seen ∧
      (play policies turns (calm shared)).2.contents =
        (play policies (turns.map Turn.keeping)
          (calm shared)).2.contents := by
  have hQuiet := quiet_calm hReachable.atRest
  rcases Peers.play ⟨hQuiet, hQuiet, rfl⟩ policies hTurns
    with ⟨hEnd, hSeen, hLast⟩
  exact ⟨hEnd, hSeen, hLast.same⟩

/-
  A table with keys that are texts is dropped and created
  with keys that are numbers; the negative zero is written as
  a value and as a key.
-/
def rewritten : List Turn :=
  [⟨.start, .define ⟨"t", .text "k", []⟩, false⟩,
    ⟨.start, .dropTable "t", true⟩,
    ⟨.start, .define ⟨"t", .number (Number.zero.neg),
      [("a", some (.number (Number.zero.neg)))]⟩, true⟩,
    ⟨.start, .get ⟨"t", [.number Number.zero]⟩, true⟩]

/- The table is another one, with and without clearing. -/
theorem clearing_is_unseen_rewritten :
    (play default rewritten
        (calm Moment.new.shared)).2.contents.tables.rows =
      [⟨2, "t", true⟩] ∧
      (play default rewritten
          (calm Moment.new.shared)).1.map Answered.seen =
        (play default (rewritten.map Turn.keeping)
          (calm Moment.new.shared)).1.map Answered.seen ∧
      (play default rewritten
          (calm Moment.new.shared)).2.contents =
        (play default (rewritten.map Turn.keeping)
          (calm Moment.new.shared)).2.contents := by
  have hReachable : Reachable Moment.new.shared := .refl
  refine ⟨by decide +kernel, ?_⟩
  exact (clearing_is_unseen hReachable default
    (by simp [rewritten, Call.IsSummary])).2

end Session

end SparseTables
