import SparseTables.Proofs.Contents.Formed
import SparseTables.Script.Store

/-
  This file bounds how calls of the store may go wrong, and
  lists what a statement may answer and leave behind then.

  Whatever a statement does, the contents only age: no
  identity is given out twice.

  Main declarations:
    * `Trouble`
    * `Faults.Within`
    * `Faults.meet_within`
    * `Statement.May`
    * `Statement.run_ages`
-/

namespace SparseTables

------------------------------------------------------------
-- Planned failures
------------------------------------------------------------

/- How calls of the store may go wrong. -/
inductive Trouble where
  /- No call fails. -/
  | none
  /- Calls fail without effect. -/
  | early
  /- Calls fail, with or without effect. -/
  | any
deriving DecidableEq

/- A planned failure that goes no further than that. -/
def PlannedFault.Within :
    Trouble → PlannedFault → Prop
  | .none, fault => fault.times = 0
  | .early, fault => fault.late = false
  | .any, _ => True

/- A failure that goes no further than that. -/
def Failure.Within : Trouble → Failure → Prop
  | .none, _ => False
  | .early, failure => failure.late = false
  | .any, _ => True

/- Planned failures that go no further than that. -/
def Faults.Within (trouble : Trouble) (faults : Faults) :
    Prop :=
  ∀ fault ∈ faults.planned, fault.Within trouble

namespace Faults

theorem meetFirst_within
    {trouble : Trouble}
    (kind : Request.Kind)
    (text : String)
    {planned : List PlannedFault}
    (hPlanned : ∀ fault ∈ planned, fault.Within trouble) :
    (∀ failure ∈ (meetFirst kind text planned).1,
      failure.Within trouble) ∧
    ∀ fault ∈ (meetFirst kind text planned).2,
      fault.Within trouble := by
  induction planned with
  | nil => simp [meetFirst]
  | cons fault rest ih =>
      rcases List.forall_mem_cons.1 hPlanned with
        ⟨hFault, hRest⟩
      rcases ih hRest with ⟨hFailure, hLater⟩
      simp only [meetFirst]
      by_cases hFits : fault.fits kind text
      · have hTimes : fault.times ≠ 0 := by
          simp only [PlannedFault.fits, Bool.and_eq_true,
            decide_eq_true_eq] at hFits
          omega
        rw [if_pos hFits]
        split
        · refine ⟨by simp, List.forall_mem_cons.2
            ⟨?_, hRest⟩⟩
          cases trouble <;> exact hFault
        · refine ⟨?_, List.forall_mem_cons.2 ⟨?_, hRest⟩⟩
          · cases trouble with
            | none => exact absurd hFault hTimes
            | early =>
                intro failure hSame
                cases hSame
                exact hFault
            | any => simp [Failure.Within]
          · cases trouble with
            | none => exact absurd hFault hTimes
            | early => exact hFault
            | any => trivial
      · rw [if_neg hFits]
        exact ⟨hFailure,
          List.forall_mem_cons.2 ⟨hFault, hLater⟩⟩

/- Failures stay within the bound. -/
theorem meet_within
    {trouble : Trouble}
    {faults : Faults}
    (hFaults : faults.Within trouble)
    (kind : Request.Kind)
    (text : String) :
    (∀ failure ∈ (faults.meet kind text).1,
      failure.Within trouble) ∧
    (faults.meet kind text).2.Within trouble :=
  meetFirst_within kind text hFaults

end Faults

------------------------------------------------------------
-- Statements
------------------------------------------------------------

namespace Statement

/-
  What a statement may answer, and the contents it leaves
  then: it runs, it is refused, or its answer is lost.
-/
inductive May
    (trouble : Trouble)
    (clock : Clock)
    (contents : Contents)
    (statement : Statement) :
    Except Error statement.Answer → Contents → Prop where
  | answered
      {answer : statement.Answer}
      {after : Contents}
      (hRun : statement.run clock contents =
        .ok (answer, after)) :
      May trouble clock contents statement (.ok answer) after
  | failed
      {error : Error}
      (hRun : statement.run clock contents = .error error) :
      May trouble clock contents statement (.error error)
        contents
  | refused
      (hTrouble : trouble ≠ .none)
      (error : Error) :
      May trouble clock contents statement (.error error)
        contents
  | lost
      (hTrouble : trouble = .any)
      (error : Error)
      {answer : statement.Answer}
      {after : Contents}
      (hRun : statement.run clock contents =
        .ok (answer, after)) :
      May trouble clock contents statement (.error error)
        after

/-
  A statement leaves what it makes of the contents, or the
  contents as they were.
-/
theorem May.after
    {trouble : Trouble}
    {clock : Clock}
    {contents after : Contents}
    {statement : Statement}
    {answer : Except Error statement.Answer}
    (hMay : statement.May trouble clock contents answer
      after) :
    after = contents ∨ ∃ answer,
      statement.run clock contents = .ok (answer, after) := by
  cases hMay with
  | answered hRun => exact Or.inr ⟨_, hRun⟩
  | failed _ => exact Or.inl rfl
  | refused _ _ => exact Or.inl rfl
  | lost _ _ hRun => exact Or.inr ⟨_, hRun⟩

/- No statement gives out an identity twice. -/
theorem run_ages
    {clock : Clock}
    {contents after : Contents}
    {statement : Statement}
    {answer : statement.Answer}
    (hRun : statement.run clock contents =
      .ok (answer, after)) :
    contents.Ages after :=
  (effect hRun).ages

end Statement

end SparseTables
