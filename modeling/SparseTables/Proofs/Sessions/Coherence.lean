import SparseTables.Proofs.Session.Errands

/-
  This file states how sessions that share a store, each with
  its own caches, see what the others have removed.

  Calls are complete: one is over before the next one begins.
  A session is in step if no other one has dropped a table or
  emptied the dictionaries since its caches were cleared.
  Then it answers as if it had cached nothing.  If it is not,
  it may go on with what is gone.

  Main declarations:
    * `Session.Circle`
    * `Session.Visit`
    * `Session.InStep`
    * `Session.Circle.Orderly`
    * `Session.Circle.Orderly.take`
    * `Session.Circle.answers_as_uncached`
    * `Session.Circle.outdated_answers_differ`
-/

namespace SparseTables

open Program

namespace Session

------------------------------------------------------------
-- Calls of many sessions
------------------------------------------------------------

/- A store and the caches of its sessions, by number. -/
structure Circle where
  store : Store
  caches : Nat → Caches

/- A session makes a call, or the clock is set. -/
inductive Visit where
  | call (session : Nat) (policies : Policies) (made : Call)
  | setClock (clock : Clock)

namespace Circle

/- No session has cached anything. -/
def of (store : Store) : Circle where
  store
  caches _ := .empty

def contents (circle : Circle) : Contents :=
  circle.store.engine.contents

/- What a session works with. -/
def shared (circle : Circle) (session : Nat) : Shared :=
  ⟨circle.store, circle.caches session⟩

/- What a session leaves. -/
def put
    (circle : Circle)
    (session : Nat)
    (shared : Shared) : Circle where
  store := shared.store
  caches other :=
    if other = session then shared.caches
    else circle.caches other

/- One visit. -/
def take (circle : Circle) : Visit → Circle
  | .call session policies made =>
      circle.put session
        ((made.program policies).advance
          (circle.shared session)).2
  | .setClock clock =>
      { circle with store := { circle.store with clock } }

/- One visit after another. -/
def follow (circle : Circle) (visits : List Visit) : Circle :=
  visits.foldl take circle

end Circle

------------------------------------------------------------
-- Sessions in step
------------------------------------------------------------

namespace Call

/- Does a call clear the caches of its session? -/
def clears : Call → Bool
  | dropTable _ | reset _ => true
  | _ => false

/- Does a call remove rows of dictionaries? -/
def removes : Call → Bool
  | dropTable _ => true
  | reset dictionaries => dictionaries
  | _ => false

/- All others leave the dictionaries alone. -/
theorem May.leaves
    {call : Call}
    (hKeeps : call.removes = false)
    {asked : Statement}
    (hMay : call.May asked) :
    asked.Leaves := by
  cases call with
  | dropTable => cases hKeeps
  | reset dictionaries =>
      cases hKeeps
      exact hMay
  | _ => exact hMay

/- A call that clears them ends with caches that mirror. -/
theorem ends_cleared
    (policies : Policies)
    {call : Call}
    (hClears : call.clears)
    (clock : Clock)
    {contents : Contents}
    (hKeyed : contents.Keyed)
    (caches : Caches) :
    ∃ outcome after kept,
      (call.program policies).Ends clock
        (.ofContents contents) caches outcome
        (.ofContents after) kept ∧
      kept.Mirrors after := by
  cases call with
  | dropTable name =>
      -- it begins by clearing them
      exact (sure_dropTable policies name).tends.ends clock
        contents .empty hKeyed (.empty contents)
  | reset dictionaries =>
      rcases Sure.ends_clearing (blind_wipes dictionaries)
        (bound_wipes (fun _ _ => trivial)
          fun _ _ => trivial) clock contents with
        ⟨outcome, after, hEnds⟩
      exact ⟨outcome, after, .empty, hEnds caches,
        .empty after⟩
  | _ => cases hClears

end Call

/- Is a session in step after a visit? -/
def Visit.inStep (session : Nat) (before : Bool) :
    Visit → Bool
  | call actor _ made =>
      if actor = session then made.clears || before
      else before && !made.removes
  | setClock _ => before

/-
  Has no other session removed rows of dictionaries since the
  caches were cleared?
-/
def InStep (session : Nat) (visits : List Visit) : Prop :=
  visits.foldl (Visit.inStep session) true

instance (session : Nat) (visits : List Visit) :
    Decidable (InStep session visits) :=
  inferInstanceAs (Decidable (_ = true))

------------------------------------------------------------
-- What holds between calls
------------------------------------------------------------

namespace Circle

/-
  Nothing is going on in a store that does not fail, its
  contents are keyed, and sessions in step mirror them.
-/
structure Orderly
    (steps : Nat → Bool)
    (circle : Circle) : Prop where
  free : circle.store.engine.hold = none
  calm : circle.store.faults.Within .none
  keyed : circle.contents.Keyed
  mirrors : ∀ session, steps session →
    (circle.caches session).Mirrors circle.contents

variable {circle : Circle} {steps : Nat → Bool}

@[simp] theorem caches_put_same
    (session : Nat)
    (shared : Shared) :
    (circle.put session shared).caches session =
      shared.caches := by
  simp [put]

theorem caches_put_other
    {session other : Nat}
    (hOther : other ≠ session)
    (shared : Shared) :
    (circle.put session shared).caches other =
      circle.caches other := by
  simp [put, hOther]

namespace Orderly

/- A store as it can be reached, with new sessions. -/
theorem of_reachable
    {shared : Shared}
    (hReachable : Reachable shared) :
    Orderly (fun _ => true)
      (Circle.of (Session.calm shared).store) where
  free := hReachable.tidy.free
  calm := hReachable.tidy.calm
  keyed := hReachable.tidy.keyed
  mirrors _ _ := .empty _

/- A program ends as it does on the contents. -/
theorem advance
    (hOrderly : circle.Orderly steps)
    {α : Type}
    {program : Program α}
    {caches kept : Caches}
    {outcome : Except Error α}
    {after : Contents}
    (hEnds : program.Ends circle.store.clock
      (.ofContents circle.contents) caches outcome
      (.ofContents after) kept) :
    ∃ last, program.advance ⟨circle.store, caches⟩ =
        (.finished outcome, last) ∧
      last.contents = after ∧ last.caches = kept ∧
      last.store.engine.hold = none ∧
      last.store.faults.Within .none := by
  rcases circle with ⟨⟨⟨contents, hold⟩, clock, faults⟩, _⟩
  have hFree : hold = none := hOrderly.free
  subst hFree
  rcases hEnds faults hOrderly.calm with
    ⟨later, hLater, hAdvance⟩
  exact ⟨_, hAdvance, rfl, rfl, rfl, hLater⟩

/-
  A call ends, whatever its session has cached, and leaves
  caches that mirror if they did before or were cleared.
-/
theorem ends
    (hOrderly : circle.Orderly steps)
    (session : Nat)
    (policies : Policies)
    (call : Call) :
    ∃ outcome after kept,
      (call.program policies).Ends circle.store.clock
        (.ofContents circle.contents) (circle.caches session)
        outcome (.ofContents after) kept ∧
      ((call.clears || steps session) → kept.Mirrors after) := by
  by_cases hClears : call.clears
  · rcases call.ends_cleared policies hClears
      circle.store.clock hOrderly.keyed
      (circle.caches session) with
      ⟨outcome, after, kept, hEnds, hKept⟩
    exact ⟨outcome, after, kept, hEnds, fun _ => hKept⟩
  by_cases hStep : steps session
  · rcases (call.agrees policies).tends.ends
      circle.store.clock _ _ hOrderly.keyed
      (hOrderly.mirrors session hStep) with
      ⟨outcome, after, kept, hEnds, hKept⟩
    exact ⟨outcome, after, kept, hEnds, fun _ => hKept⟩
  · rcases (call.agrees policies).bound.ends
      circle.store.clock circle.contents
      (circle.caches session) with
      ⟨outcome, after, kept, hEnds⟩
    exact ⟨outcome, after, kept, hEnds, by
      simp [hClears, hStep]⟩

/- A visit keeps the sessions in order. -/
theorem take
    (hOrderly : circle.Orderly steps)
    (visit : Visit) :
    (circle.take visit).Orderly fun session =>
      visit.inStep session (steps session) := by
  cases visit with
  | setClock clock => exact { hOrderly with }
  | call actor policies made =>
      rcases hOrderly.ends actor policies made with
        ⟨outcome, after, kept, hEnds, hKept⟩
      have hBound := (made.agrees policies).bound
      rcases hOrderly.advance hEnds with
        ⟨last, hLast, rfl, rfl, hFree, hCalm⟩
      have hTake : circle.take (.call actor policies made) =
          circle.put actor last :=
        congrArg (circle.put actor) (congrArg Prod.snd hLast)
      rw [hTake]
      refine ⟨hFree, hCalm, hBound.keeps
        (fun asked _ => asked.keeps_keyed) hEnds
        hOrderly.keyed, fun session hStep => ?_⟩
      simp only [Visit.inStep] at hStep
      by_cases hActor : actor = session
      · subst hActor
        rw [if_pos rfl] at hStep
        rw [caches_put_same]
        exact hKept hStep
      · rw [if_neg hActor, Bool.and_eq_true,
          Bool.not_eq_true'] at hStep
        rw [caches_put_other (Ne.symm hActor)]
        have hRetains := hBound.keeps
          (fun asked hMay =>
            (hMay.leaves hStep.2).keeps_retained _) hEnds
          (.refl _)
        exact (hOrderly.mirrors session hStep.1).retains
          hRetains

theorem follow
    (hOrderly : circle.Orderly steps)
    (visits : List Visit) :
    (circle.follow visits).Orderly fun session =>
      visits.foldl (Visit.inStep session)
        (steps session) := by
  induction visits generalizing circle steps with
  | nil => exact hOrderly
  | cons visit rest ih => exact ih (hOrderly.take visit)

/-
  A call answers as with empty caches if what its session has
  cached is there, and leaves the same contents.
-/
theorem answers
    (hOrderly : circle.Orderly steps)
    {session : Nat}
    (hMirrors :
      (circle.caches session).Mirrors circle.contents)
    (policies : Policies)
    (call : Call) :
    ∃ outcome other after after',
      (call.program policies).advance
          (circle.shared session) =
        (.finished outcome, after) ∧
      (call.program policies).advance
          ⟨circle.store, .empty⟩ =
        (.finished other, after') ∧
      AlikeOutcomes call.Alike outcome other ∧
      after.contents = after'.contents := by
  rcases (call.agrees policies).ends circle.store.clock
    circle.contents _ .empty hOrderly.keyed hMirrors
    (.empty _) with
    ⟨outcome, other, target, kept, kept', hEnds, hEnds',
      hAlike, -, -⟩
  rcases hOrderly.advance hEnds with
    ⟨after, hAdvance, hTarget, -⟩
  rcases hOrderly.advance hEnds' with
    ⟨after', hAdvance', hTarget', -⟩
  exact ⟨outcome, other, after, after', hAdvance, hAdvance',
    hAlike, hTarget.trans hTarget'.symm⟩

end Orderly

------------------------------------------------------------
-- Answers
------------------------------------------------------------

/-
  Sessions make calls in any order.  A session that is in
  step has only cached what is in the store.  If that is so,
  every call answers as with empty caches, but for the signs
  of zeros, and leaves the same contents.
-/
theorem answers_as_uncached
    {shared : Shared}
    (hReachable : Reachable shared)
    (visits : List Visit)
    (session : Nat)
    {circle : Circle}
    (hFollow : (Circle.of (calm shared).store).follow
      visits = circle) :
    (InStep session visits →
      (circle.caches session).Mirrors circle.contents) ∧
    ((circle.caches session).Mirrors circle.contents →
      ∀ policies call, ∃ outcome other after after',
        (Call.program policies call).advance
            (circle.shared session) =
          (.finished outcome, after) ∧
        (call.program policies).advance
            ⟨circle.store, .empty⟩ =
          (.finished other, after') ∧
        AlikeOutcomes call.Alike outcome other ∧
        after.contents = after'.contents) := by
  subst hFollow
  have hOrderly :=
    (Orderly.of_reachable hReachable).follow visits
  exact ⟨hOrderly.mirrors session, fun hMirrors policies call =>
    hOrderly.answers hMirrors policies call⟩

/-
  Both sessions drop the table that the other one has cached,
  and clear their caches before they use it again.
-/
def takingTurns : List Visit :=
  [.call 0 default (.define ⟨"t", .text "k", []⟩),
    .call 1 default (.get ⟨"t", [.text "k"]⟩),
    .call 0 default (.dropTable "t"),
    .call 1 default (.dropTable "t"),
    .call 0 default (.reset false),
    .call 1 default (.define ⟨"t", Scalar.ofInt 1, []⟩)]

/- The table is another one then, for both. -/
theorem answers_as_uncached_turns :
    ∃ circle,
      (Circle.of (calm Moment.new.shared).store).follow
        takingTurns = circle ∧
      circle.contents.tables.rows = [⟨2, "t", true⟩] ∧
      (circle.caches 0).Mirrors circle.contents ∧
      ∃ outcome other after after',
        (get default ⟨"t", [.ofInt 1]⟩).advance
            (circle.shared 0) =
          (.finished outcome, after) ∧
        (get default ⟨"t", [.ofInt 1]⟩).advance
            ⟨circle.store, .empty⟩ =
          (.finished other, after') ∧
        AlikeOutcomes (Call.get ⟨"t", [.ofInt 1]⟩).Alike
          outcome other ∧
        after.contents = after'.contents := by
  rcases answers_as_uncached .refl takingTurns 0 rfl with
    ⟨hMirrors, hAnswers⟩
  have hThere := hMirrors (by decide)
  exact ⟨_, rfl, by decide +kernel, hThere,
    hAnswers hThere default (.get ⟨"t", [.ofInt 1]⟩)⟩

/- A session defines an item, and another drops its table. -/
def droppedElsewhere : Circle :=
  (Circle.of (calm Moment.new.shared).store).follow
    [.call 0 default (.define ⟨"t", .text "k", []⟩),
      .call 1 default (.dropTable "t")]

/- A session defines an item under the negative zero. -/
def negativeZero : Circle :=
  (Circle.of (calm Moment.new.shared).store).follow
    [.call 0 default
      (.define ⟨"t", .number Number.zero.neg, []⟩)]

/-
  The session goes on with the table that is gone: it finds
  no item under the key, and cannot define one again.  And a
  summary shows the sign of zero only if it is cached.
-/
theorem outdated_answers_differ :
    ((get default ⟨"t", [.text "k"]⟩).advance
        (droppedElsewhere.shared 0)).1.result? =
      some ⟨[none]⟩ ∧
    ((get default ⟨"t", [.text "k"]⟩).advance
        ⟨droppedElsewhere.store, .empty⟩).1.error? =
      some (.notFound "table t") ∧
    ((define default ⟨"t", .text "k", []⟩).advance
        (droppedElsewhere.shared 0)).1.error? =
      some (.exhausted "Items.get_or_create_item" 4
        (.store .foreignKey)) ∧
    ((define default ⟨"t", .text "k", []⟩).advance
        ⟨droppedElsewhere.store, .empty⟩).1.result? =
      some 2 ∧
    ((summarize 1).advance
        (negativeZero.shared 0)).1.result? =
      some "t[-0] \x7b\x7d" ∧
    ((summarize 1).advance
        ⟨negativeZero.store, .empty⟩).1.result? =
      some "t[0] \x7b\x7d" := by
  decide +kernel

end Circle

end Session

end SparseTables
