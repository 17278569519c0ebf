import Mathlib.Data.List.Nodup
import SparseTables.Plan.Evaluate

/-
  This file shows when the conditions of a filter are due and
  what trying one of them gives.

  Main declarations:
    * `Predicate.exists_of_anyHolds_error`
    * `Filter.mem_conditions_iff`
    * `Filter.isNever_iff`
    * `Filter.mem_due_iff`
    * `Filter.mem_due_append_iff`
-/

namespace SparseTables

------------------------------------------------------------
-- Alternatives
------------------------------------------------------------

namespace Predicate

variable {params : Params} {row : JoinedRow}
variable {parts : List Predicate}

/- An alternative holds because of one of its comparisons. -/
theorem exists_of_anyHolds_true
    (hHolds : anyHolds params row parts = .ok true) :
    ∃ part ∈ parts, compares params row part = true := by
  induction parts with
  | nil => cases hHolds
  | cons first rest ih =>
      by_cases hFirst : compares params row first = true
      · exact ⟨first, List.mem_cons_self, hFirst⟩
      · have hRest : anyHolds params row rest = .ok true := by
          cases first with
          | «matches» label param => cases hHolds
          | _ =>
              unfold anyHolds at hHolds
              split at hHolds
              · cases hHolds
              · simpa only [if_neg hFirst] using hHolds
        rcases ih hRest with ⟨part, hPart, hIs⟩
        exact ⟨part, List.mem_cons_of_mem _ hPart, hIs⟩

/- One comparison that was tried says if it is true. -/
theorem compares_of_anyHolds
    {part : Predicate}
    (hKind : part.isSearch = false)
    {holds : Bool}
    (hHolds : anyHolds params row [part] = .ok holds) :
    compares params row part = holds := by
  cases part with
  | «matches» label param => cases hKind
  | _ =>
      unfold anyHolds at hHolds
      split at hHolds
      · cases hHolds
      · split at hHolds
        · rename_i hTrue
          cases hHolds
          exact hTrue
        · rename_i hFalse
          cases hHolds
          simpa using hFalse

/- An alternative that fails has no searches. -/
theorem forall_of_anyHolds_false
    (hFails : anyHolds params row parts = .ok false) :
    ∀ part ∈ parts, part.isSearch = false ∧
      compares params row part = false := by
  induction parts with
  | nil => exact List.forall_mem_nil _
  | cons first rest ih =>
      cases first with
      | «matches» label param => cases hFails
      | _ =>
          unfold anyHolds at hFails
          split at hFails
          · cases hFails
          · split at hFails
            · cases hFails
            · rename_i hFirst
              exact List.forall_mem_cons.2
                ⟨⟨rfl, by simpa using hFirst⟩, ih hFails⟩

/- Where alternatives that are tried one by one break off. -/
theorem exists_of_anyHolds_error
    {error : Error}
    (hError : anyHolds params row parts = .error error) :
    ∃ before made after, parts = before ++ made :: after ∧
      (∀ part ∈ before, part.isSearch = false ∧
        compares params row part = false) ∧
      (made.isSearch = true ∧
          error = .store .misplacedSearch ∨
        made.isTooLong params = true ∧
          error = .store .patternTooLong) := by
  induction parts with
  | nil => cases hError
  | cons first rest ih =>
      by_cases hKind : first.isSearch = true
      · refine ⟨[], first, rest, rfl, by simp, .inl
          ⟨hKind, ?_⟩⟩
        cases first <;> cases hKind
        exact (Except.error.inj hError).symm
      rw [Bool.not_eq_true] at hKind
      have hTried : anyHolds params row (first :: rest) =
          if first.isTooLong params then
            .error (.store .patternTooLong)
          else if compares params row first then .ok true
          else anyHolds params row rest := by
        cases first with
        | «matches» label param => cases hKind
        | _ => rfl
      rw [hTried] at hError
      split at hError
      · rename_i hLong
        exact ⟨[], first, rest, rfl, by simp,
          .inr ⟨hLong, (Except.error.inj hError).symm⟩⟩
      · split at hError
        · cases hError
        · rename_i hNot
          rcases ih hError with
            ⟨before, made, after, rfl, hBefore, hMade⟩
          refine ⟨first :: before, made, after, rfl,
            List.forall_mem_cons.2
              ⟨⟨hKind, by simpa using hNot⟩, hBefore⟩, hMade⟩

/- Alternatives are tried on what their sides give. -/
theorem anyHolds_congr
    {other : JoinedRow}
    (hSame : ∀ part ∈ parts, ∀ left,
      part.expr? = some left →
        left.eval row = left.eval other) :
    anyHolds params row parts =
      anyHolds params other parts := by
  induction parts with
  | nil => rfl
  | cons first rest ih =>
      rw [List.forall_mem_cons] at hSame
      cases first with
      | never =>
          simp [anyHolds, compares,
            ih hSame.2]
      | compare left op param =>
          have hFirst : compares params row
              (.compare left op param) =
              compares params other
                (.compare left op param) := by
            simp only [compares, hSame.1 left rfl]
          simp only [anyHolds, hFirst, ih hSame.2]
      | «matches» label param => rfl

end Predicate

namespace Filter

variable {filter : Filter}

------------------------------------------------------------
-- Conditions
------------------------------------------------------------

/- The conditions of a filter come from its groups. -/
theorem mem_conditions_iff
    {condition : List Predicate} :
    condition ∈ filter.conditions ↔
      ∃ group ∈ filter.groups,
        (isStrict group = true ∧ ∃ part ∈ group.2,
          part.isSearch = false ∧ condition = [part]) ∨
        (isStrict group = false ∧ condition = group.2) := by
  unfold conditions
  rw [List.mem_flatMap]
  refine exists_congr fun group => and_congr_right fun _ => ?_
  by_cases hStrict : isStrict group = true
  · rw [if_pos hStrict, List.mem_map]
    simp only [hStrict, List.mem_filter, Bool.not_eq_true',
      true_and, Bool.true_eq_false, false_and, or_false,
      and_assoc, eq_comm (a := condition)]
  · rw [if_neg hStrict]
    simp [hStrict]

/- What a condition lists stands in one group. -/
theorem exists_group
    {condition : List Predicate}
    (hCondition : condition ∈ filter.conditions)
    {part : Predicate}
    (hPart : part ∈ condition) :
    ∃ group ∈ filter.groups, part ∈ group.2 := by
  rcases List.mem_flatMap.1 hCondition with
    ⟨group, hGroup, hMem⟩
  refine ⟨group, hGroup, ?_⟩
  split at hMem
  · rcases List.mem_map.1 hMem with ⟨other, hOther, rfl⟩
    rw [List.mem_singleton.1 hPart]
    exact List.mem_of_mem_filter hOther
  · rwa [List.mem_singleton.1 hMem] at hPart

/- A filter of a table is never met if a condition is not. -/
theorem isNever_iff
    (hTable : filter.table.isSome) :
    filter.isNever = true ↔
      ∃ condition ∈ filter.conditions,
        ∀ part ∈ condition, part = .never := by
  have hNone : filter.table.isNone = false := by
    simpa using hTable
  unfold isNever
  simp only [hNone, Bool.false_or, Bool.or_eq_true,
    List.contains_iff_mem, List.any_eq_true,
    List.all_eq_true, beq_iff_eq]
  constructor
  · intro hNever
    rcases hNever with hStrict | ⟨parts, hLoose, hAll⟩
    · rcases List.mem_flatMap.1 hStrict with
        ⟨group, hGroup, hPart⟩
      rcases List.mem_filter.1 hGroup with ⟨hMem, hIs⟩
      refine ⟨[.never],
        List.mem_flatMap.2 ⟨group, hMem, ?_⟩, by simp⟩
      rw [if_pos hIs]
      exact List.mem_map.2
        ⟨_, List.mem_filter.2 ⟨hPart, rfl⟩, rfl⟩
    · rcases List.mem_map.1 hLoose with ⟨group, hGroup, rfl⟩
      rcases List.mem_filter.1 hGroup with ⟨hMem, hNot⟩
      refine ⟨group.2,
        List.mem_flatMap.2 ⟨group, hMem, ?_⟩, hAll⟩
      rw [if_neg (by simpa using hNot)]
      exact List.mem_singleton_self _
  · intro ⟨condition, hCondition, hAll⟩
    rcases List.mem_flatMap.1 hCondition with
      ⟨group, hGroup, hMem⟩
    by_cases hIs : isStrict group = true
    · rw [if_pos hIs] at hMem
      rcases List.mem_map.1 hMem with ⟨part, hPart, rfl⟩
      refine Or.inl (List.mem_flatMap.2
        ⟨group, List.mem_filter.2 ⟨hGroup, hIs⟩, ?_⟩)
      rw [← hAll part (List.mem_singleton_self _)]
      exact List.mem_of_mem_filter hPart
    · rw [if_neg hIs, List.mem_singleton] at hMem
      refine Or.inr ⟨group.2, List.mem_map.2
        ⟨group, List.mem_filter.2 ⟨hGroup, ?_⟩, rfl⟩, ?_⟩
      · simpa using hIs
      · rwa [← hMem]

/- Else every condition can be met. -/
theorem exists_ne_never
    (hNever : ¬ filter.isNever = true)
    {condition : List Predicate}
    (hCondition : condition ∈ filter.conditions) :
    ∃ part ∈ condition, part ≠ .never := by
  have hTable : filter.table.isSome := by
    by_contra hNone
    exact hNever (by simp_all [isNever])
  by_contra hParts
  refine hNever ((isNever_iff hTable).2
    ⟨condition, hCondition, ?_⟩)
  intro part hPart
  by_contra hOther
  exact hParts ⟨part, hPart, hOther⟩

------------------------------------------------------------
-- Times
------------------------------------------------------------

theorem mem_due_iff
    {before after : List String}
    {condition : List Predicate} :
    condition ∈ filter.due before after ↔
      condition ∈ filter.conditions ∧
        condition.filterMap Predicate.source? ⊆ after ∧
        ¬ condition.filterMap Predicate.source? ⊆ before := by
  have hAll (known : List String) :
      (condition.filterMap Predicate.source?).all
          known.contains = true ↔
        condition.filterMap Predicate.source? ⊆ known := by
    rw [List.all_eq_true]
    simp only [List.contains_iff_mem]
    rfl
  simp only [due, List.mem_filter, Bool.and_eq_true,
    Bool.not_eq_true', ← Bool.not_eq_true, hAll]

/- The order in which aliases were joined does not matter. -/
theorem due_congr
    {before before' after after' : List String}
    (hBefore : ∀ label, label ∈ before ↔ label ∈ before')
    (hAfter : ∀ label, label ∈ after ↔ label ∈ after') :
    filter.due before after = filter.due before' after' := by
  have hContains
      {known known' : List String}
      (hSame : ∀ label, label ∈ known ↔ label ∈ known') :
      known.contains = known'.contains := by
    funext label
    rw [List.contains_eq_mem, List.contains_eq_mem]
    exact decide_eq_decide.2 (hSame label)
  simp only [due, hContains hBefore, hContains hAfter]

/- Without new aliases nothing is completed. -/
theorem due_self (known : List String) :
    filter.due known known = [] := by
  apply List.eq_nil_iff_forall_not_mem.2
  intro condition hDue
  rcases mem_due_iff.1 hDue with ⟨-, hAfter, hBefore⟩
  exact hBefore hAfter

/- What two steps complete is what they complete together. -/
theorem mem_due_append_iff
    {before between after : List String}
    (hFirst : before ⊆ between)
    (hSecond : between ⊆ after)
    {condition : List Predicate} :
    condition ∈ filter.due before between ++
        filter.due between after ↔
      condition ∈ filter.due before after := by
  rw [List.mem_append, mem_due_iff, mem_due_iff, mem_due_iff]
  constructor
  · intro hEither
    rcases hEither with
      ⟨hMem, hNow, hNot⟩ | ⟨hMem, hNow, hNot⟩
    · exact ⟨hMem, List.Subset.trans hNow hSecond, hNot⟩
    · exact ⟨hMem, hNow, fun hBefore =>
        hNot (List.Subset.trans hBefore hFirst)⟩
  · intro ⟨hMem, hNow, hNot⟩
    by_cases hBetween :
        condition.filterMap Predicate.source? ⊆ between
    · exact .inl ⟨hMem, hBetween, hNot⟩
    · exact .inr ⟨hMem, hNow, hBetween⟩

end Filter

end SparseTables
