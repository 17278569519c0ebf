import SparseTables.Retry

/-
  This file shows how many attempts a policy makes, and what
  comes of them, whatever their outcomes are.

  The outcomes of all attempts that could be made are given
  as a sequence.  An attempt takes the next one and counts
  itself, so the count in the end is that of the attempts
  made.

  Main declarations:
    * `Error.isRetryable_iff`
    * `Policy.IsFinal`
    * `Policy.counted`
    * `Policy.run_of_first_isFinal`
    * `Policy.run_of_store`
    * `Policy.run_ends_with_first_final`
-/

namespace SparseTables

/- Only failures of the store lead to another attempt. -/
theorem Error.isRetryable_iff {error : Error} :
    error.isRetryable = true ↔
      ∃ fault, error = .store fault := by
  cases error <;> simp [isRetryable]

namespace Policy

variable {α : Type}

------------------------------------------------------------
-- Outcomes
------------------------------------------------------------

/- A success, or an error that is no failure of the store. -/
def IsFinal (outcome : Except Error α) : Prop :=
  ∀ fault, outcome ≠ .error (.store fault)

theorem isFinal_or_exists (outcome : Except Error α) :
    IsFinal outcome ∨
      ∃ fault, outcome = .error (.store fault) := by
  by_cases hStore : ∃ fault, outcome = .error (.store fault)
  · exact .inr hStore
  · exact .inl (not_exists.1 hStore)

theorem IsFinal.isRetryable
    {error : Error}
    (hFinal : IsFinal (.error error : Except Error α)) :
    ¬ error.isRetryable = true := by
  rw [Error.isRetryable_iff]
  rintro ⟨fault, rfl⟩
  exact hFinal fault rfl

------------------------------------------------------------
-- Counted attempts
------------------------------------------------------------

/- Take the next outcome of a sequence, and count on. -/
def counted (outcomes : Nat → Except Error α) :
    ExceptT Error (StateM Nat) α :=
  ExceptT.mk fun made => (outcomes made, made + 1)

variable {outcomes : Nat → Except Error α}
variable {label : String} {attempts made further : Nat}

/- What comes after an attempt sees the count raised. -/
theorem run_tryCatch_counted
    (handle : Error → ExceptT Error (StateM Nat) α) :
    (tryCatch (counted outcomes) handle).run.run made =
      match outcomes made with
      | .ok found => (.ok found, made + 1)
      | .error error => (handle error).run.run (made + 1) := by
  simp only [tryCatch, tryCatchThe, MonadExceptOf.tryCatch,
    ExceptT.tryCatch, ExceptT.run, ExceptT.mk, StateT.run,
    bind, StateT.bind, counted]
  cases outcomes made <;> rfl

/- A final outcome is given as it is. -/
theorem run_tryCatch_of_isFinal
    (hFinal : IsFinal (outcomes made))
    (again : Error → ExceptT Error (StateM Nat) α) :
    (tryCatch (counted outcomes) fun error =>
        if error.isRetryable then again error
        else throw error).run.run made =
      (outcomes made, made + 1) := by
  rw [run_tryCatch_counted]
  cases hOutcome : outcomes made with
  | ok found => rfl
  | error error =>
      rw [hOutcome] at hFinal
      simp only [if_neg hFinal.isRetryable]
      rfl

theorem run_of_isFinal
    (hFinal : IsFinal (outcomes made)) :
    (runFrom label attempts (counted outcomes)
        further).run.run made =
      (outcomes made, made + 1) := by
  cases further with
  | zero => exact run_tryCatch_of_isFinal hFinal _
  | succ further => exact run_tryCatch_of_isFinal hFinal _

/- The last attempt that fails has its error wrapped. -/
theorem run_zero_of_store
    {fault : StoreFault}
    (hStore : outcomes made = .error (.store fault)) :
    (runFrom label attempts (counted outcomes) 0).run.run
        made =
      (.error (.exhausted label attempts (.store fault)),
        made + 1) := by
  rw [runFrom, run_tryCatch_counted, hStore]
  rfl

/- A failure of the store leads to the next attempt. -/
theorem run_succ_of_store
    {fault : StoreFault}
    (hStore : outcomes made = .error (.store fault)) :
    (runFrom label attempts (counted outcomes)
        (further + 1)).run.run made =
      (runFrom label attempts (counted outcomes)
        further).run.run (made + 1) := by
  rw [runFrom, run_tryCatch_counted, hStore]
  rfl

------------------------------------------------------------
-- All attempts
------------------------------------------------------------

variable {last : Nat}

/- The first outcome that is final ends the attempts. -/
theorem run_of_first_isFinal
    (hEarlier : ∀ earlier, made ≤ earlier → earlier < last →
      ∃ fault, outcomes earlier = .error (.store fault))
    (hFinal : IsFinal (outcomes last))
    (hMade : made ≤ last)
    (hWithin : last ≤ made + further) :
    (runFrom label attempts (counted outcomes)
        further).run.run made =
      (outcomes last, last + 1) := by
  rcases Nat.eq_or_lt_of_le hMade with rfl | hLess
  · exact run_of_isFinal hFinal
  · induction further generalizing made with
    | zero => omega
    | succ further ih =>
        rcases hEarlier made (Nat.le_refl _) hLess with
          ⟨fault, hStore⟩
        rw [run_succ_of_store hStore]
        rcases Nat.eq_or_lt_of_le hLess with rfl | hMore
        · exact run_of_isFinal hFinal
        · exact ih
            (fun earlier hLe => hEarlier earlier (by omega))
            hLess (by omega) hMore

/- If none is, the error of the last attempt is wrapped. -/
theorem run_of_store
    {fault : StoreFault}
    (hEarlier : ∀ earlier, made ≤ earlier → earlier < last →
      ∃ fault, outcomes earlier = .error (.store fault))
    (hStore : outcomes last = .error (.store fault))
    (hLast : made + further = last) :
    (runFrom label attempts (counted outcomes)
        further).run.run made =
      (.error (.exhausted label attempts (.store fault)),
        last + 1) := by
  induction further generalizing made with
  | zero =>
      subst hLast
      exact run_zero_of_store hStore
  | succ further ih =>
      rcases hEarlier made (Nat.le_refl _) (by omega) with
        ⟨first, hFirst⟩
      rw [run_succ_of_store hFirst]
      exact ih (fun earlier hLe => hEarlier earlier (by omega))
        (by omega)

/- There is a first outcome that is final, or there is none. -/
theorem first_isFinal_or
    (outcomes : Nat → Except Error α)
    (most : Nat) :
    (∃ last < most,
      (∀ earlier < last,
        ∃ fault, outcomes earlier = .error (.store fault)) ∧
      IsFinal (outcomes last)) ∨
    ∀ earlier < most,
      ∃ fault, outcomes earlier = .error (.store fault) := by
  induction most with
  | zero => exact .inr (by omega)
  | succ most ih =>
      rcases ih with ⟨last, hLast, hFirst⟩ | hNone
      · exact .inl ⟨last, by omega, hFirst⟩
      · rcases isFinal_or_exists (outcomes most) with
          hFinal | hStore
        · exact .inl ⟨most, by omega, hNone, hFinal⟩
        · refine .inr fun earlier hLess => ?_
          rcases Nat.eq_or_lt_of_le (Nat.lt_succ_iff.1 hLess)
            with rfl | hMore
          · exact hStore
          · exact hNone earlier hMore

/-
  A policy makes attempts until the first outcome that is
  final, and gives that outcome; if none is final within the
  attempts that were asked for, of which it makes at least
  one, it gives the last error, wrapped.  An error is final
  unless it is a failure of the store.
-/
theorem run_ends_with_first_final
    (requested : Nat)
    (label : String)
    (outcomes : Nat → Except Error α) :
    ((∃ last < max requested 1,
        (∀ earlier < last,
          ∃ fault, outcomes earlier = .error (.store fault)) ∧
        (∀ fault, outcomes last ≠ .error (.store fault)) ∧
        ((ofRequested requested).run label
            (counted outcomes)).run.run 0 =
          (outcomes last, last + 1)) ∨
      ∃ fault,
        (∀ earlier < max requested 1,
          ∃ fault, outcomes earlier = .error (.store fault)) ∧
        outcomes (max requested 1 - 1) =
          .error (.store fault) ∧
        ((ofRequested requested).run label
            (counted outcomes)).run.run 0 =
          (.error (.exhausted label (max requested 1)
            (.store fault)), max requested 1)) ∧
    ∀ error : Error, error.isRetryable = true ↔
      ∃ fault, error = .store fault := by
  refine ⟨?_, fun _ => Error.isRetryable_iff⟩
  rcases first_isFinal_or outcomes (max requested 1) with
    ⟨last, hLast, hEarlier, hFinal⟩ | hNone
  · refine .inl ⟨last, hLast, hEarlier, hFinal, ?_⟩
    refine run_of_first_isFinal
      (fun earlier _ => hEarlier earlier)
      hFinal (Nat.zero_le last) ?_
    change last ≤ 0 + (max requested 1 - 1)
    omega
  · rcases hNone (max requested 1 - 1) (by omega) with
      ⟨fault, hStore⟩
    refine .inr ⟨fault, hNone, hStore, ?_⟩
    have hRun : ((ofRequested requested).run label
        (counted outcomes)).run.run 0 =
          (.error (.exhausted label (max requested 1)
            (.store fault)), max requested 1 - 1 + 1) :=
      run_of_store
        (fun earlier _ hLess => hNone earlier (by omega)) hStore
        (Nat.zero_add _)
    rw [hRun, Nat.sub_add_cancel (by omega)]

/- No attempt was asked for, and one is made. -/
example :
    ((ofRequested 0).run "item" (counted fun _ : Nat =>
        .error (.store .foreignKey))).run.run 0 =
      ((.error (.exhausted "item" 1 (.store .foreignKey)), 1) :
        Except Error Unit × Nat) :=
  rfl

end Policy

end SparseTables
