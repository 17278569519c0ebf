import SparseTables.Proofs.Program.Trouble
import SparseTables.Proofs.Tasks.Abides

/-
  This file shows what a request of a task leaves in the store.

  What a transaction has made of the store stays apart until
  it is committed, and differs from what was there before in
  items and slots only.

  Main declarations:
    * `Engine.Met`
    * `Program.met_of_step`
    * `Contents.Spares`
    * `Contents.Alters`
    * `Phase.Agrees`
    * `Engine.Met.agrees`
    * `Engine.Met.fits`
    * `Engine.Met.refused_of_held`
-/

namespace SparseTables

------------------------------------------------------------
-- Answers and effects
------------------------------------------------------------

namespace Engine

/-
  A request is refused, or it is met by a store that does not
  make it wait.
-/
inductive Met
    (clock : Clock)
    (engine : Engine) :
    (request : Request) → Except Error request.Answer →
      Engine → Prop where
  | refused
      {request : Request}
      (hRequest : request ≠ .release)
      (error : Error) :
      Met clock engine request (.error error) engine
  | shared
      {asked : Statement}
      {answer : Except Error asked.Answer}
      {after : Contents}
      (hFree : engine.hold = none)
      (hMay : asked.May .any clock engine.contents answer
        after) :
      Met clock engine (.shared asked) answer
        { engine with contents := after }
  | held
      {asked : Statement}
      {answer : Except Error asked.Answer}
      {after : Contents}
      (hMay : asked.May .any clock engine.contents answer
        after) :
      Met clock engine (.held asked) answer
        { engine with contents := after }
  | begun (hFree : engine.hold = none) :
      Met clock engine .begin (.ok ()) engine.begin
  | nested (answer : Except Error Unit) :
      Met clock engine .nest answer engine.nest
  | committed (answer : Except Error Unit) :
      Met clock engine .commit answer engine.commit.2
  | released :
      Met clock engine .release (.ok ()) engine.release

/- A statement is run, fails, or loses its answer. -/
theorem may_statement
    (clock : Clock)
    (engine : Engine)
    (asked : Statement) :
    ∃ after,
      (engine.statement clock asked).2 =
        { engine with contents := after } ∧
      asked.May .any clock engine.contents
        (engine.statement clock asked).1 after ∧
      ∀ error, asked.May .any clock engine.contents
        (.error error) after := by
  unfold statement
  cases hRun : asked.run clock engine.contents with
  | error error =>
      exact ⟨engine.contents, rfl, .failed hRun,
        .refused (by simp)⟩
  | ok given =>
      exact ⟨given.2, rfl, .answered hRun,
        fun error => .lost rfl error hRun⟩

end Engine

/- What the store does, and what the answer may be. -/
theorem Store.met_of_perform
    {store after : Store}
    {request : Request}
    {lost : Option Error}
    {answer : Except Error request.Answer}
    (hFree : store.engine.blocks request = false)
    (hLost : lost ≠ none → request ≠ .release)
    (hPerform : store.perform request lost =
      (answer, after)) :
    store.engine.Met store.clock request answer
      after.engine := by
  cases request with
  | shared asked =>
      have hHold : store.engine.hold = none := by
        simpa [Engine.blocks] using hFree
      rcases store.engine.may_statement store.clock asked with
        ⟨contents, hAfter, hMay, hError⟩
      unfold perform at hPerform
      simp only [Engine.perform] at hPerform
      split at hPerform
      all_goals
        cases hPerform
        simp only [reduceCtorEq, if_false]
        rw [hAfter]
      · exact .shared hHold (hError _)
      · exact .shared hHold hMay
  | held asked =>
      rcases store.engine.may_statement store.clock asked with
        ⟨contents, hAfter, hMay, hError⟩
      unfold perform at hPerform
      simp only [Engine.perform] at hPerform
      split at hPerform
      all_goals
        cases hPerform
        simp only [reduceCtorEq, if_false]
        rw [hAfter]
      · exact .held (hError _)
      · exact .held hMay
  | begin =>
      have hHold : store.engine.hold = none := by
        simpa [Engine.blocks] using hFree
      rcases store with ⟨⟨contents, hold⟩, clock, faults⟩
      cases hHold
      cases lost <;> cases hPerform
      · exact .begun rfl
      · exact .refused (by simp) _
  | nest => cases lost <;> cases hPerform <;> exact .nested _
  | commit =>
      unfold perform at hPerform
      simp only [Engine.perform] at hPerform
      split at hPerform <;> cases hPerform <;>
        exact .committed _
  | release =>
      cases lost with
      | some error => exact absurd rfl (hLost (by simp))
      | none =>
          cases hPerform
          exact .released

/- The drop of a scope cannot fail. -/
theorem Store.meet_release (store : Store) :
    store.meet .release = (none, store) :=
  rfl

/- A step of a program is a request that is met. -/
theorem Program.met_of_step
    {α : Type}
    {shared after : Shared}
    {request : Request}
    {next : Except Error request.Answer → Program α}
    {later : Program α}
    (hStep : (ask request next).step? shared =
      some (later, after)) :
    ∃ answer, later = next answer ∧
      after.caches = shared.caches ∧
      shared.store.engine.Met shared.store.clock request answer
        after.store.engine := by
  rcases hMeet : shared.store.meet request with
    ⟨failure, store⟩
  have hSame : store.engine = shared.store.engine ∧
      store.clock = shared.store.clock := by
    unfold Store.meet at hMeet
    split at hMeet <;> cases hMeet <;> exact ⟨rfl, rfl⟩
  have hFails : failure ≠ none → request ≠ .release := by
    rintro hFails rfl
    rw [Store.meet_release] at hMeet
    cases hMeet
    exact hFails rfl
  rw [← hSame.1, ← hSame.2]
  simp only [step?, hMeet] at hStep
  split at hStep
  · cases hStep
    exact ⟨_, rfl, rfl, .refused (hFails (by simp)) _⟩
  · split at hStep
    · cases hStep
    · rename_i hFree
      cases hStep
      refine ⟨_, rfl, rfl, Store.met_of_perform
        (by simpa using hFree) (fun hLost => ?_) rfl⟩
      exact hFails fun hNone => hLost (by simp [hNone])

------------------------------------------------------------
-- Kept dictionaries
------------------------------------------------------------

namespace Contents

/- The dictionaries lose no row. -/
structure Spares (before after : Contents) : Prop where
  formed : after.Formed
  ages : before.Ages after
  retains : before.Retains after

/- Only items and slots differ. -/
structure Alters (before after : Contents) : Prop where
  formed : after.Formed
  ages : before.Ages after
  tables : after.tables = before.tables
  attributes : after.attributes = before.attributes
  values : after.values = before.values

theorem Spares.refl
    {contents : Contents}
    (hFormed : contents.Formed) :
    contents.Spares contents :=
  ⟨hFormed, .refl _, .refl _⟩

namespace Alters

variable {first second third : Contents}

theorem refl (hFormed : first.Formed) :
    first.Alters first :=
  ⟨hFormed, .refl _, rfl, rfl, rfl⟩

theorem trans
    (hFirst : first.Alters second)
    (hSecond : second.Alters third) :
    first.Alters third where
  formed := hSecond.formed
  ages := hFirst.ages.trans hSecond.ages
  tables := hSecond.tables.trans hFirst.tables
  attributes := hSecond.attributes.trans hFirst.attributes
  values := hSecond.values.trans hFirst.values

theorem spares (hAlters : first.Alters second) :
    first.Spares second where
  formed := hAlters.formed
  ages := hAlters.ages
  retains :=
    ⟨fun _ => by simp [hAlters.tables],
      fun _ => by simp [hAlters.attributes],
      fun _ => by simp [hAlters.values]⟩

end Alters

end Contents

namespace Statement

variable {trouble : Trouble} {clock : Clock}
variable {contents after : Contents} {asked : Statement}
variable {answer : Except Error asked.Answer}

theorem May.spares
    (hMay : asked.May trouble clock contents answer after)
    (hFormed : contents.Formed)
    (hSpares : asked.Spares) :
    contents.Spares after := by
  rcases hMay.after with rfl | ⟨given, hRun⟩
  · exact .refl hFormed
  · have hEffect := effect hRun
    refine ⟨hFormed.effect hEffect ?_, run_ages hRun,
      hEffect.retains hSpares.leaves⟩
    rintro slot rfl
    cases hSpares

/- A transaction alters what it works on. -/
theorem May.alters
    {scene : Scene}
    (hMay : asked.May trouble clock contents answer after)
    (hFormed : contents.Formed)
    (hGiven :
      scene.contents.items.last ≤ contents.items.last)
    (hAlters : asked.Alters scene) :
    contents.Alters after := by
  rcases hMay.after with rfl | ⟨given, hRun⟩
  · exact .refl hFormed
  have hAfter : after.Formed := by
    refine hFormed.effect (effect hRun) ?_
    rintro slot rfl
    exact Int.le_trans hAlters.given hGiven
  suffices hSame : after.tables = contents.tables ∧
      after.attributes = contents.attributes ∧
      after.values = contents.values from
    ⟨hAfter, run_ages hRun, hSame.1, hSame.2.1, hSame.2.2⟩
  cases asked
  case addSlot slot =>
      have hSame : (contents.addSlot slot).2 = after :=
        congrArg Prod.snd (Except.ok.inj hRun)
      rw [← hSame, Contents.addSlot_eq]
      exact ⟨rfl, rfl, rfl⟩
  case touchItem | removeItem | removeSlot =>
      cases hRun
      exact ⟨rfl, rfl, rfl⟩
  all_goals cases hAlters

end Statement

------------------------------------------------------------
-- Transactions among others
------------------------------------------------------------

namespace Phase

/- A transaction that is not committed yet. -/
def Open (engine : Engine) : Prop :=
  ∃ saved, engine.hold = some ⟨0, some saved⟩ ∧
    saved.Alters engine.contents

/- What the store holds for the task that uses it. -/
def Agrees : Phase → Engine → Prop
  | apart, engine => engine.hold = none
  | inside, engine => Open engine
  | closing, engine =>
      Open engine ∨ engine.hold = some ⟨0, none⟩

/- Whoever is not apart holds the store. -/
theorem Agrees.held
    {phase : Phase}
    {engine : Engine}
    (hAgrees : phase.Agrees engine)
    (hPhase : phase ≠ .apart) :
    engine.hold ≠ none := by
  cases phase with
  | apart => exact absurd rfl hPhase
  | inside =>
      rcases hAgrees with ⟨saved, hHold, -⟩
      simp [hHold]
  | closing =>
      rcases hAgrees with ⟨saved, hHold, -⟩ | hHold <;>
        simp [hHold]

end Phase

namespace Engine

variable {clock : Clock} {engine after : Engine}
variable {request : Request}
variable {answer : Except Error request.Answer}

/- Everyone else is refused while the store is held. -/
theorem Met.refused_of_held
    (hMet : engine.Met clock request answer after)
    (hHeld : engine.hold ≠ none)
    {scene : Scene}
    (hAllowed : request.Allowed scene .apart ∨
      ∃ asked, request = .shared asked) :
    after = engine ∧ ∃ error, answer = .error error := by
  cases hMet with
  | refused _ error => exact ⟨rfl, error, rfl⟩
  | shared hFree _ => exact absurd hFree hHeld
  | begun hFree => exact absurd hFree hHeld
  | held | nested | committed | released =>
      rcases hAllowed with hNever | ⟨_, hWrong⟩
      · cases hNever
      · cases hWrong

section Agrees

variable {scene : Scene}

/- A task is apart, and the store is free. -/
theorem Met.agrees_apart
    (hMet : engine.Met clock request answer after)
    (hFree : engine.hold = none)
    (hFormed : engine.committed.Formed)
    (hAllowed : request.Allowed scene .apart) :
    (Phase.apart.after request answer).Agrees after ∧
      engine.committed.Spares after.committed ∧
      request.Tells engine.committed after.committed
        answer := by
  rcases engine with ⟨contents, hold⟩
  cases hFree
  have hSame : contents.Spares contents := .refl hFormed
  cases hMet with
  | refused hRequest error =>
      cases request with
      | shared | begin => exact ⟨rfl, hSame, trivial⟩
      | held | nest | commit | release => cases hAllowed
  | @shared asked answer contents' _ hMay =>
      refine ⟨rfl, hMay.spares hFormed hAllowed, ?_⟩
      cases hMay with
      | answered hRun => exact ⟨clock, hRun⟩
      | failed | refused | lost => trivial
  | begun _ =>
      exact ⟨⟨contents, rfl, .refl hFormed⟩, hSame, trivial⟩
  | held | nested | committed | released => cases hAllowed

/- A task is in a transaction. -/
theorem Met.agrees_inside
    (hMet : engine.Met clock request answer after)
    (hOpen : Phase.Open engine)
    (hScene : scene.contents = engine.committed)
    (hAllowed : request.Allowed scene .inside) :
    (Phase.inside.after request answer).Agrees after ∧
      engine.committed.Spares after.committed ∧
      request.Tells engine.committed after.committed
        answer := by
  have hSame : engine.committed.Spares engine.committed :=
    .refl (hScene ▸ scene.formed)
  rcases engine with ⟨contents, hold⟩
  rcases hOpen with ⟨saved, hHold, hAlters⟩
  cases hHold
  have hOpen :
      Phase.Open ⟨contents, some ⟨0, some saved⟩⟩ :=
    ⟨saved, rfl, hAlters⟩
  cases hMet with
  | refused hRequest error =>
      cases request with
      | held asked => exact ⟨hOpen, hSame, trivial⟩
      | commit => exact ⟨Or.inl hOpen, hSame, trivial⟩
      | release => exact absurd rfl hRequest
      | shared | begin | nest => cases hAllowed
  | @held asked answer contents' hMay =>
      have hLater := hMay.alters hAlters.formed
        (hScene ▸ hAlters.ages.items.last) hAllowed
      exact ⟨⟨saved, rfl, hAlters.trans hLater⟩, hSame,
        trivial⟩
  | committed answer =>
      exact ⟨Or.inr rfl, hAlters.spares, trivial⟩
  | released => exact ⟨rfl, hSame, trivial⟩
  | shared | begun | nested => cases hAllowed

/- A task has only to release its transaction. -/
theorem Met.agrees_closing
    (hMet : engine.Met clock request answer after)
    (hAgrees : Phase.closing.Agrees engine)
    (hFormed : engine.committed.Formed)
    (hAllowed : request.Allowed scene .closing) :
    (Phase.closing.after request answer).Agrees after ∧
      engine.committed.Spares after.committed ∧
      request.Tells engine.committed after.committed
        answer := by
  have hSame : engine.committed.Spares engine.committed :=
    .refl hFormed
  rcases engine with ⟨contents, hold⟩
  cases hMet with
  | refused hRequest error =>
      cases request with
      | release => exact absurd rfl hRequest
      | shared | held | begin | nest | commit =>
          cases hAllowed
  | released =>
      rcases hAgrees with ⟨saved, hHold, -⟩ | hHold
      all_goals
        cases hHold
        exact ⟨rfl, hSame, trivial⟩
  | shared | held | begun | nested | committed =>
      cases hAllowed

/-
  The store goes along with the task that uses it, and what
  is committed keeps the dictionaries.
-/
theorem Met.agrees
    (hMet : engine.Met clock request answer after)
    {phase : Phase}
    (hAgrees : phase.Agrees engine)
    (hScene : scene.contents = engine.committed)
    (hAllowed : request.Allowed scene phase) :
    (phase.after request answer).Agrees after ∧
      engine.committed.Spares after.committed ∧
      request.Tells engine.committed after.committed
        answer := by
  have hFormed : engine.committed.Formed :=
    hScene ▸ scene.formed
  cases phase with
  | apart => exact hMet.agrees_apart hAgrees hFormed hAllowed
  | inside => exact hMet.agrees_inside hAgrees hScene hAllowed
  | closing =>
      exact hMet.agrees_closing hAgrees hFormed hAllowed

end Agrees

------------------------------------------------------------
-- Slots
------------------------------------------------------------

/- All slots fit, those of an open transaction as well. -/
structure Fits (scene : Scene) (engine : Engine) : Prop where
  current : ∀ slot ∈ engine.contents.slots, scene.Fits slot
  left : ∀ slot ∈ engine.committed.slots, scene.Fits slot

/- Only slots that fit are added. -/
theorem Met.fits
    (hMet : engine.Met clock request answer after)
    {scene : Scene}
    (hFits : engine.Fits scene)
    (hAdds : ∀ slot, request = .shared (.addSlot slot) ∨
      request = .held (.addSlot slot) → scene.Fits slot) :
    after.Fits scene := by
  have hMay
      {asked : Statement}
      {answer : Except Error asked.Answer}
      {contents : Contents}
      (hMay : asked.May .any clock engine.contents answer
        contents)
      (hAdds : ∀ slot, asked = .addSlot slot →
        scene.Fits slot) :
      ∀ slot ∈ contents.slots, scene.Fits slot := by
    intro slot hSlot
    rcases hMay.after with rfl | ⟨given, hRun⟩
    · exact hFits.current slot hSlot
    · rcases (Statement.effect hRun).mem_slots hSlot with
        hOld | hNew
      · exact hFits.current slot hOld
      · exact hAdds slot hNew
  rcases engine with ⟨contents, hold⟩
  cases hMet with
  | refused _ error => exact hFits
  | shared hFree hAsked =>
      have hSlots := hMay hAsked fun slot hSame =>
        hAdds slot (Or.inl (hSame ▸ rfl))
      cases hFree
      exact ⟨hSlots, hSlots⟩
  | held hAsked =>
      have hSlots := hMay hAsked fun slot hSame =>
        hAdds slot (Or.inr (hSame ▸ rfl))
      refine ⟨hSlots, ?_⟩
      rcases hold with _ | ⟨further, _ | saved⟩
      · exact hSlots
      · exact hSlots
      · exact hFits.left
  | begun hFree => exact ⟨hFits.current, hFits.current⟩
  | nested answer =>
      rcases hold with _ | ⟨further, _ | saved⟩ <;>
        exact ⟨hFits.current, hFits.left⟩
  | committed answer =>
      rcases hold with _ | ⟨_ | further, _ | saved⟩
      case some.zero.some =>
        exact ⟨hFits.current, hFits.current⟩
      all_goals exact hFits
  | released =>
      rcases hold with _ | ⟨_ | further, saved⟩
      · exact hFits
      · exact ⟨hFits.left, hFits.left⟩
      · exact ⟨hFits.current, hFits.left⟩

end Engine

end SparseTables
