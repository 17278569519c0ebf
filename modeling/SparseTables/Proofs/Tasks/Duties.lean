import SparseTables.Proofs.Tasks.Requests

/-
  This file shows what the statements of a duty remove, and
  that a table is gone when the last of them is answered.

  Main declarations:
    * `Contents.Dropped`
    * `Duty.Allows.mem_attributes`
    * `Duty.Allows.mem_values`
    * `Duty.dropped_of_last`
    * `Engine.Met.effect`
    * `Program.Razes.settled`
-/

namespace SparseTables

------------------------------------------------------------
-- Tables that are gone
------------------------------------------------------------

/- An identity was given to a table that is gone. -/
def Contents.Dropped
    (contents : Contents)
    (tableId : Int) : Prop :=
  tableId ≤ contents.tables.last ∧
    ∀ row ∈ contents.tables.rows, row.id ≠ tableId

/- A table that is gone does not come back. -/
theorem Contents.Dropped.later
    {before after : Contents}
    {tableId : Int}
    (hDropped : before.Dropped tableId)
    (hAges : before.Ages after) :
    after.Dropped tableId := by
  rcases hDropped with ⟨hGiven, hNone⟩
  refine ⟨Int.le_trans hGiven hAges.tables.last, ?_⟩
  rintro row hRow rfl
  have hOld := hAges.tables.rows row hRow hGiven
  rw [List.map_id'] at hOld
  exact hNone row hOld rfl

------------------------------------------------------------
-- Statements of a duty
------------------------------------------------------------

namespace Duty

variable {duty : Duty} {asked : Statement}
variable {clock : Clock} {before after : Contents}

/- Attributes go only with their tables. -/
theorem Allows.mem_attributes
    (hAllows : duty.Allows asked)
    (hEffect : asked.Effect clock before after)
    {row : Attribute}
    (hRow : row ∈ before.attributes.rows) :
    row ∈ after.attributes.rows ∨ duty.Dooms row.tableId := by
  cases duty with
  | wipe => exact Or.inr trivial
  | drop tableId =>
      rcases hEffect.mem_attributes hRow with hKept |
        rfl | rfl
      · exact Or.inl hKept
      · rcases hAllows with hNever | hSame | hSame
        · cases hNever
        · cases hSame
          exact Or.inr rfl
        · cases hSame
      · rcases hAllows with hNever | hSame | hSame
        · cases hNever
        · cases hSame
        · cases hSame

/- Values go only with everything. -/
theorem Allows.mem_values
    (hAllows : duty.Allows asked)
    (hEffect : asked.Effect clock before after)
    {row : Value}
    (hRow : row ∈ before.values.rows) :
    row ∈ after.values.rows ∨ duty = .wipe := by
  cases duty with
  | wipe => exact Or.inr rfl
  | drop tableId =>
      rcases hEffect.mem_values hRow with hKept | rfl
      · exact Or.inl hKept
      · rcases hAllows with hNever | hSame | hSame
        · cases hNever
        · cases hSame
        · cases hSame

/- No slot is added. -/
theorem Allows.ne_addSlot
    (hAllows : duty.Allows asked)
    (slot : Slot) :
    asked ≠ .addSlot slot := by
  rintro rfl
  cases duty with
  | drop tableId =>
      rcases hAllows with hNever | hSame | hSame
      · cases hNever
      · cases hSame
      · cases hSame
  | wipe =>
      rcases hAllows with hNever | hSame | hSame | hSame
      · cases hNever
      · cases hSame
      · cases hSame
      · cases hSame

/- After the last statement all doomed tables are gone. -/
theorem dropped_of_last
    {answer : duty.last.Answer}
    (hRun : duty.last.run clock before = .ok (answer, after))
    {tableId : Int}
    (hDooms : duty.Dooms tableId)
    (hGiven : tableId ≤ before.tables.last) :
    after.Dropped tableId := by
  cases duty with
  | drop doomed =>
      cases hDooms
      change before.removeTables (fun other =>
        other == tableId) = .ok (answer, after) at hRun
      rcases Contents.removeTables_eq_ok hRun with ⟨-, rfl⟩
      refine ⟨hGiven, fun row hRow => ?_⟩
      simpa using (Contents.mem_remove_iff.1 hRow).2
  | wipe =>
      change before.removeTables (fun _ => true) =
        .ok (answer, after) at hRun
      rcases Contents.removeTables_eq_ok hRun with ⟨-, rfl⟩
      refine ⟨hGiven, fun row hRow => ?_⟩
      simpa using (Contents.mem_remove_iff.1 hRow).2

end Duty

/- What a statement outside of transactions leaves. -/
theorem Engine.Met.effect
    {clock : Clock}
    {engine after : Engine}
    {asked : Statement}
    {answer : Except Error asked.Answer}
    (hMet : engine.Met clock (.shared asked) answer after) :
    asked.Effect clock engine.committed after.committed ∧
      engine.committed.Ages after.committed ∧
      (answer.isOk → ∃ given, asked.run clock
        engine.committed = .ok (given, after.committed)) ∧
      (engine.hold = none → after.hold = none) ∧
      (engine.hold ≠ none → after = engine) := by
  rcases engine with ⟨contents, hold⟩
  cases hMet with
  | refused _ error =>
      exact ⟨.same, .refl _, nofun, id, fun _ => rfl⟩
  | @shared _ _ later hFree hMay =>
      cases hFree
      have hOk (hOk : answer.isOk) :
          ∃ given, asked.run clock contents =
            .ok (given, later) := by
        cases hMay with
        | answered hRun => exact ⟨_, hRun⟩
        | failed | refused | lost => exact nomatch hOk
      rcases hMay.after with rfl | ⟨given, hRun⟩
      · exact ⟨.same, .refl _, hOk, id,
          fun hHeld => absurd rfl hHeld⟩
      · exact ⟨Statement.effect hRun, Statement.run_ages hRun,
          hOk, id, fun hHeld => absurd rfl hHeld⟩

------------------------------------------------------------
-- Programs at a duty
------------------------------------------------------------

namespace Program

variable {α : Type} {duty : Duty}

/- A program at a duty makes a statement next. -/
theorem Razes.exists_ask
    {program : Program α}
    (hRazes : program.Razes duty) :
    ∃ asked go, program = ask (.shared asked) go := by
  cases program with
  | done outcome => cases hRazes
  | cached update next => cases hRazes
  | ask request next =>
      rcases hRazes with ⟨asked, rfl, -⟩
      exact ⟨asked, next, rfl⟩

/- It only makes statements that its duty allows. -/
theorem Razes.allows
    {asked : Statement}
    {go : Except Error asked.Answer → Program α}
    (hRazes : (ask (.shared asked) go).Razes duty) :
    duty.Allows asked := by
  rcases hRazes with ⟨other, hSame, hAllows, -⟩
  cases hSame
  exact hAllows

/- It is settled, -/
theorem Razes.settle
    {program : Program α}
    (hRazes : program.Razes duty)
    (caches : Caches) :
    program.settle caches = (program, caches) := by
  rcases hRazes.exists_ask with ⟨asked, go, rfl⟩
  rfl

/- and not at its end. -/
theorem Razes.not_done
    {program : Program α}
    (hRazes : program.Razes duty)
    (outcome : Except Error α) :
    program ≠ done outcome := by
  rintro rfl
  cases hRazes

/-
  After an answer the duty goes on.  Else the caches are
  cleared, and the program has failed or is done with its
  last statement.
-/
theorem Razes.settled
    {asked : Statement}
    {go : Except Error asked.Answer → Program α}
    (hRazes : (ask (.shared asked) go).Razes duty)
    (answer : Except Error asked.Answer)
    (caches : Caches) :
    ((go answer).Razes duty ∧
      (go answer).settle caches = (go answer, caches)) ∨
    ∃ outcome,
      (go answer).settle caches = (done outcome, .empty) ∧
      ((∃ error, outcome = .error error) ∨
        asked = duty.last ∧ answer.isOk) := by
  have hClears
      {outcome : Except Error α}
      (hClears : (go answer).Clears outcome) :
      (go answer).settle caches = (done outcome, .empty) := by
    rw [hClears]
    rfl
  rcases hRazes with ⟨other, hSame, -, hNext⟩
  cases hSame
  rcases hNext answer with
    hGoes | ⟨error, hFails⟩ | ⟨hLast, hOk, outcome, hEnds⟩
  · exact Or.inl ⟨hGoes, hGoes.settle caches⟩
  · exact Or.inr ⟨_, hClears hFails, Or.inl ⟨error, rfl⟩⟩
  · exact Or.inr ⟨_, hClears hEnds, Or.inr ⟨hLast, hOk⟩⟩

end Program

end SparseTables
