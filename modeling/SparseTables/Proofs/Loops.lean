/-
  This file collects facts about loops that may fail.

  Main declarations:
    * `Except.forM_eq_ok_iff`
    * `Except.forM_eq_error`
    * `Except.allM_eq_true_iff`
    * `Except.mapM_eq`
    * `Option.mapM_map_eq`
-/

namespace SparseTables

------------------------------------------------------------
-- Tests of every element
------------------------------------------------------------

/- A test and what follows it both succeed, or neither. -/
theorem Except.then_eq_ok_iff
    {ε α : Type}
    {test : Except ε Unit}
    {next : Unit → Except ε α}
    {found : α} :
    test >>= next = .ok found ↔
      test = .ok () ∧ next () = .ok found := by
  cases test with
  | error failure => simp [bind, Except.bind]
  | ok _ => simp [bind, Except.bind]

theorem Except.forM_eq_ok_iff
    {ε α : Type}
    {test : α → Except ε Unit}
    {rows : List α} :
    rows.forM test = .ok () ↔
      ∀ row ∈ rows, test row = .ok () := by
  induction rows with
  | nil => simp [List.forM, pure, Except.pure]
  | cons first rest ih =>
      rw [List.forall_mem_cons, ← ih]
      exact Except.then_eq_ok_iff

theorem Except.forM_flatMap
    {ε α β : Type}
    {parts : α → List β}
    {test : β → Except ε Unit}
    {rows : List α} :
    (rows.flatMap parts).forM test =
      rows.forM fun row => (parts row).forM test := by
  induction rows with
  | nil => rfl
  | cons first rest ih =>
      rw [List.flatMap_cons]
      simp_all

/- The first test that fails decides. -/
theorem Except.forM_eq_error
    {ε α : Type}
    {test : α → Except ε Unit}
    {before after : List α}
    {bad : α}
    {failure : ε}
    (hBefore : ∀ row ∈ before, test row = .ok ())
    (hBad : test bad = .error failure) :
    (before ++ bad :: after).forM test = .error failure := by
  induction before with
  | nil =>
      change (test bad >>= fun _ => after.forM test) = _
      rw [hBad]
      rfl
  | cons first rest ih =>
      rw [List.forall_mem_cons] at hBefore
      change (test first >>= fun _ =>
        (rest ++ bad :: after).forM test) = _
      rw [hBefore.1]
      exact ih hBefore.2

------------------------------------------------------------
-- Tests and results of every element
------------------------------------------------------------

/- Tests that agree on every element agree on all. -/
theorem Except.allM_congr
    {ε α : Type}
    {test other : α → Except ε Bool}
    {rows : List α}
    (hSame : ∀ row ∈ rows, test row = other row) :
    rows.allM test = rows.allM other := by
  induction rows with
  | nil => rfl
  | cons first rest ih =>
      rw [List.forall_mem_cons] at hSame
      rw [List.allM, List.allM, hSame.1, ih hSame.2]

theorem Except.allM_eq_true_iff
    {ε α : Type}
    {test : α → Except ε Bool}
    {rows : List α} :
    rows.allM test = .ok true ↔
      ∀ row ∈ rows, test row = .ok true := by
  induction rows with
  | nil => simp [List.allM, pure, Except.pure]
  | cons first rest ih =>
      rw [List.forall_mem_cons, ← ih, List.allM]
      rcases test first with _ | _ | _ <;>
        simp [bind, Except.bind, pure, Except.pure]

/- A test that is failed is failed by some row. -/
theorem Except.exists_of_allM_eq_false
    {ε α : Type}
    {test : α → Except ε Bool}
    {rows : List α}
    (hAll : rows.allM test = .ok false) :
    ∃ row ∈ rows, test row = .ok false := by
  induction rows with
  | nil => cases hAll
  | cons first rest ih =>
      rw [List.allM] at hAll
      cases hFirst : test first with
      | error error =>
          rw [hFirst] at hAll
          cases hAll
      | ok holds =>
          rw [hFirst] at hAll
          cases holds with
          | false => exact ⟨first, List.mem_cons_self, hFirst⟩
          | true =>
              rcases ih hAll with ⟨row, hRow, hFails⟩
              exact ⟨row, List.mem_cons_of_mem _ hRow, hFails⟩

theorem Except.exists_of_allM_eq_error
    {ε α : Type}
    {test : α → Except ε Bool}
    {rows : List α}
    {failure : ε}
    (hAll : rows.allM test = .error failure) :
    ∃ row ∈ rows, test row = .error failure := by
  induction rows with
  | nil => cases hAll
  | cons first rest ih =>
      rw [List.allM] at hAll
      cases hFirst : test first with
      | error error =>
          rw [hFirst] at hAll
          cases hAll
          exact ⟨first, List.mem_cons_self, hFirst⟩
      | ok holds =>
          rw [hFirst] at hAll
          cases holds with
          | false => cases hAll
          | true =>
              rcases ih hAll with ⟨row, hRow, hFails⟩
              exact ⟨row, List.mem_cons_of_mem _ hRow, hFails⟩

/- What never fails on a row gives one result a row. -/
theorem Except.mapM_eq
    {ε α β : Type}
    {make : α → Except ε β}
    {made : α → β}
    {rows : List α}
    (hMake : ∀ row ∈ rows, make row = .ok (made row)) :
    rows.mapM make = .ok (rows.map made) := by
  induction rows with
  | nil => rfl
  | cons first rest ih =>
      have hRest := ih fun row hRow =>
        hMake row (List.mem_cons_of_mem _ hRow)
      rw [List.mapM_cons, hMake first List.mem_cons_self,
        hRest]
      rfl

/- What gives results fails on no row. -/
theorem Except.exists_of_mapM_eq_ok
    {ε α β : Type}
    {make : α → Except ε β}
    {rows : List α}
    {made : List β}
    (hAll : rows.mapM make = .ok made) :
    ∀ row ∈ rows, ∃ found, make row = .ok found := by
  induction rows generalizing made with
  | nil => exact List.forall_mem_nil _
  | cons first rest ih =>
      rw [List.mapM_cons] at hAll
      cases hFirst : make first with
      | error error =>
          rw [hFirst] at hAll
          cases hAll
      | ok found =>
          cases hRest : rest.mapM make with
          | error error =>
              rw [hFirst, hRest] at hAll
              cases hAll
          | ok more =>
              exact List.forall_mem_cons.2
                ⟨⟨found, hFirst⟩, ih hRest⟩

/- What fails on some row fails as it does on that row. -/
theorem Except.exists_of_mapM_eq_error
    {ε α β : Type}
    {make : α → Except ε β}
    {rows : List α}
    {failure : ε}
    (hAll : rows.mapM make = .error failure) :
    ∃ row ∈ rows, make row = .error failure := by
  induction rows with
  | nil => cases hAll
  | cons first rest ih =>
      rw [List.mapM_cons] at hAll
      cases hFirst : make first with
      | error error =>
          rw [hFirst] at hAll
          cases hAll
          exact ⟨first, List.mem_cons_self, hFirst⟩
      | ok made =>
          cases hRest : rest.mapM make with
          | error error =>
              rw [hFirst, hRest] at hAll
              cases hAll
              rcases ih hRest with ⟨row, hRow, hFails⟩
              exact ⟨row, List.mem_cons_of_mem _ hRow, hFails⟩
          | ok more =>
              rw [hFirst, hRest] at hAll
              cases hAll

------------------------------------------------------------
-- Loops that may give nothing
------------------------------------------------------------

theorem Option.mapM_map_eq
    {α β γ : Type}
    (change : α → β)
    {make? : β → Option γ}
    (made : α → γ)
    {rows : List α}
    (hMake : ∀ row ∈ rows,
      make? (change row) = some (made row)) :
    (rows.map change).mapM make? = some (rows.map made) := by
  induction rows with
  | nil => rfl
  | cons first rest ih =>
      rw [List.forall_mem_cons] at hMake
      rw [List.map_cons, List.mapM_cons, hMake.1, ih hMake.2]
      rfl

/- All results are those of some rows. -/
theorem Option.exists_of_mapM_eq_some
    {α β : Type}
    {make? : α → Option β}
    {rows : List α}
    {made : List β}
    (hAll : rows.mapM make? = some made) :
    ∀ found ∈ made, ∃ row ∈ rows, make? row = some found := by
  induction rows generalizing made with
  | nil =>
      cases hAll
      exact List.forall_mem_nil _
  | cons first rest ih =>
      rw [List.mapM_cons] at hAll
      rcases Option.bind_eq_some_iff.1 hAll with
        ⟨head, hHead, hRest⟩
      rcases Option.bind_eq_some_iff.1 hRest with
        ⟨tail, hTail, hMade⟩
      cases hMade
      refine List.forall_mem_cons.2
        ⟨⟨first, List.mem_cons_self, hHead⟩, ?_⟩
      intro found hFound
      rcases ih hTail found hFound with ⟨row, hRow, hSame⟩
      exact ⟨row, List.mem_cons_of_mem _ hRow, hSame⟩

end SparseTables
