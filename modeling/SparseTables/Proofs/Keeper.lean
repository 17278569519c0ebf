import Mathlib.Data.Finset.Card
import Mathlib.Data.List.Induction
import SparseTables.Keeper
import SparseTables.Proofs.NameMap
import SparseTables.Proofs.Scalar

/-
  This file shows that what a keeper finds by key and what it
  finds by identity are one thing, however rows were kept and
  forgotten before.

  A keeper updates its two indexes by different rules: the
  first row stays under a key, and the last one replaces what
  is under an identity.  They agree as long as keys and
  identities go with each other, as they do in a dictionary.
  A keeper of values sees to that itself.

  Main declarations:
    * `OneToOne`
    * `Keeping.kept`
    * `Keeper.after`
    * `Keeper.Indexes`
    * `Keeper.Indexes.keep`
    * `ValueKeeper.Paired`
    * `ValueKeeper.Paired.keep`
    * `Keeper.indexes_agree`
-/

namespace SparseTables

------------------------------------------------------------
-- Keys and identities
------------------------------------------------------------

/- Elements that share one side share the other one. -/
def OneToOne
    {α κ ι : Type}
    (key : α → κ)
    (id : α → ι)
    (rows : List α) : Prop :=
  ∀ row ∈ rows, ∀ other ∈ rows,
    key row = key other ↔ id row = id other

namespace OneToOne

variable {α κ ι : Type} [DecidableEq κ] [DecidableEq ι]
variable {key : α → κ} {id : α → ι} {rows : List α}

instance : Decidable (OneToOne key id rows) :=
  inferInstanceAs (Decidable (∀ row ∈ rows, _))

omit [DecidableEq κ] [DecidableEq ι] in
theorem symm (hOne : OneToOne key id rows) :
    OneToOne id key rows :=
  fun row hRow other hOther =>
    (hOne row hRow other hOther).symm

omit [DecidableEq κ] [DecidableEq ι] in
theorem of_concat
    {row : α}
    (hOne : OneToOne key id (rows ++ [row])) :
    OneToOne key id rows :=
  fun first hFirst second hSecond =>
    hOne first (List.mem_append_left _ hFirst)
      second (List.mem_append_left _ hSecond)

/- The first element is the same by either side. -/
theorem find?_eq
    (hOne : OneToOne key id rows)
    {row : α}
    (hRow : row ∈ rows) :
    (rows.find? fun other => key other = key row) =
      rows.find? fun other => id other = id row := by
  have hSame : ∀ other ∈ rows,
      decide (key other = key row) =
        decide (id other = id row) :=
    fun other hOther =>
      decide_eq_decide.2 (hOne other hOther row hRow)
  clear hRow hOne
  induction rows with
  | nil => rfl
  | cons first rest ih =>
      rw [List.forall_mem_cons] at hSame
      rw [List.find?_cons, List.find?_cons, hSame.1,
        ih hSame.2]

/- What is found by one side is found by its other side. -/
theorem find?_eq_some_iff
    (hOne : OneToOne key id rows)
    {given : κ}
    {row : α} :
    (rows.find? fun other => key other = given) = some row ↔
      key row = given ∧
        (rows.find? fun other => id other = id row) =
          some row := by
  constructor
  · intro hFind
    have hKey : key row = given := by
      simpa using List.find?_some hFind
    refine ⟨hKey, ?_⟩
    rw [← hOne.find?_eq (List.mem_of_find?_eq_some hFind),
      hKey]
    exact hFind
  · rintro ⟨rfl, hFind⟩
    rw [hOne.find?_eq (List.mem_of_find?_eq_some hFind)]
    exact hFind

end OneToOne

------------------------------------------------------------
-- What is asked of keepers
------------------------------------------------------------

/- A keeper keeps something, or forgets everything. -/
inductive Keeping (α : Type) where
  | keep (given : α)
  | clear

namespace Keeping

variable {α : Type}

/- What is kept then, of what was kept before. -/
def add (earlier : List α) : Keeping α → List α
  | keep given => earlier ++ [given]
  | clear => []

/- What was kept since all was forgotten, in its order. -/
def kept (asked : List (Keeping α)) : List α :=
  asked.foldl add []

variable (asked : List (Keeping α))

@[simp] theorem kept_keep (given : α) :
    kept (asked ++ [keep given]) = kept asked ++ [given] := by
  simp [kept, add]

@[simp] theorem kept_clear :
    kept (asked ++ [clear]) = [] := by
  simp [kept, add]

end Keeping

------------------------------------------------------------
-- Keepers of rows
------------------------------------------------------------

namespace Keeper

variable {κ ρ : Type} [DecidableEq κ] [Keyed ρ κ]

/- Do what is asked. -/
def take (keeper : Keeper κ ρ) : Keeping ρ → Keeper κ ρ
  | .keep row => (keeper.keep row).2
  | .clear => .empty

/- A new keeper, asked for one thing after another. -/
def after (asked : List (Keeping ρ)) : Keeper κ ρ :=
  asked.foldl take .empty

theorem after_concat
    (asked : List (Keeping ρ))
    (last : Keeping ρ) :
    (after (asked ++ [last]) : Keeper κ ρ) =
      (after asked).take last := by
  simp [after]

/- The identity and the key of a row. -/
def sides (row : ρ) : Int × κ :=
  (Keyed.id row, Keyed.key row)

/-
  The first of the rows is found under a key and under an
  identity, and all rows are counted, those that have the
  same sides once.
-/
structure Indexes (keeper : Keeper κ ρ) (rows : List ρ) :
    Prop where
  get? : ∀ key : κ, keeper.get? key =
    rows.find? fun row => Keyed.key row = key
  lookup? : ∀ id : Int, keeper.lookup? id =
    rows.find? fun row => Keyed.id row = id
  size : keeper.size = (rows.map sides).toFinset.card

variable {keeper : Keeper κ ρ} {rows : List ρ} {row : ρ}

/- A row is kept unless there is one under its key. -/
theorem keep_eq (keeper : Keeper κ ρ) (row : ρ) :
    (∃ first, keeper.get? (Keyed.key row) = some first ∧
      keeper.keep row =
        (first,
          ⟨keeper.byKey,
            (Keyed.id first, first) :: keeper.byId⟩)) ∨
    keeper.get? (Keyed.key row) = none ∧
      keeper.keep row =
        (row,
          ⟨(Keyed.key row, row) :: keeper.byKey,
            (Keyed.id row, row) :: keeper.byId⟩) := by
  unfold keep
  cases keeper.get? (Keyed.key row) with
  | none => exact .inr ⟨rfl, rfl⟩
  | some first => exact .inl ⟨first, rfl, rfl⟩

/- What is given is under its identity in any case. -/
theorem byId_keep (keeper : Keeper κ ρ) (row : ρ) :
    (keeper.keep row).2.byId =
      (Keyed.id (keeper.keep row).1, (keeper.keep row).1) ::
        keeper.byId := by
  rcases keeper.keep_eq row with
    ⟨first, -, hKeep⟩ | ⟨-, hKeep⟩ <;> rw [hKeep]

namespace Indexes

theorem empty : (Keeper.empty : Keeper κ ρ).Indexes [] :=
  ⟨fun _ => rfl, fun _ => rfl, rfl⟩

theorem get?_keep
    (hIndexes : keeper.Indexes rows)
    (row : ρ)
    (key : κ) :
    (keeper.keep row).2.get? key =
      (rows ++ [row]).find? fun other =>
        Keyed.key other = key := by
  rw [List.find?_append, List.find?_singleton,
    ← hIndexes.get?]
  rcases keeper.keep_eq row with
    ⟨first, hGet, hKeep⟩ | ⟨hGet, hKeep⟩ <;> rw [hKeep]
  · change keeper.get? key = _
    by_cases hSame : Keyed.key row = key
    · subst hSame
      simp [hGet]
    · simp [hSame]
  · change List.lookup key (_ :: keeper.byKey) = _
    rw [lookup_cons_eq]
    by_cases hSame : key = Keyed.key row
    · subst hSame
      simp [hGet]
    · simp [hSame, Ne.symm hSame, Keeper.get?]

/- What is given is the first row under its key. -/
theorem find?_key
    (hIndexes : keeper.Indexes rows)
    (row : ρ) :
    ((rows ++ [row]).find? fun other =>
      (Keyed.key other : κ) = Keyed.key row) =
        some (keeper.keep row).1 := by
  rw [← hIndexes.get?_keep]
  rcases keeper.keep_eq row with
    ⟨first, hGet, hKeep⟩ | ⟨-, hKeep⟩ <;> rw [hKeep]
  · exact hGet
  · simp [Keeper.get?]

section One

variable
  (hOne : OneToOne (Keyed.key : ρ → κ) Keyed.id
    (rows ++ [row]))
include hOne

/- It is also the first one under its identity. -/
theorem find?_id (hIndexes : keeper.Indexes rows) :
    ((rows ++ [row]).find? fun other =>
      Keyed.id other = Keyed.id row) =
        some (keeper.keep row).1 := by
  rw [← hOne.find?_eq List.mem_concat_self]
  exact hIndexes.find?_key row

theorem lookup?_keep
    (hIndexes : keeper.Indexes rows)
    (id : Int) :
    (keeper.keep row).2.lookup? id =
      (rows ++ [row]).find? fun other =>
        Keyed.id other = id := by
  have hFound := hIndexes.find?_id hOne
  have hId : Keyed.id (keeper.keep row).1 =
      Keyed.id row := by
    simpa using List.find?_some hFound
  rw [Keeper.lookup?, byId_keep, lookup_cons_eq]
  by_cases hSame : id = Keyed.id row
  · rw [if_pos (hSame.trans hId.symm), hSame, hFound]
  · rw [if_neg fun hEq => hSame (hEq.trans hId),
      List.find?_append, List.find?_singleton]
    exact (hIndexes.lookup? id).trans
      (by simp [Ne.symm hSame])

/- Rows of one key and one identity are counted once. -/
theorem size_keep (hIndexes : keeper.Indexes rows) :
    (keeper.keep row).2.size =
      ((rows ++ [row]).map sides).toFinset.card := by
  rw [List.map_append, List.toFinset_append]
  rcases keeper.keep_eq row with
    ⟨first, hGet, hKeep⟩ | ⟨hGet, hKeep⟩ <;>
    rw [hKeep] <;> rw [hIndexes.get?] at hGet
  · have hMem := List.mem_of_find?_eq_some hGet
    have hKey : (Keyed.key first : κ) = Keyed.key row := by
      simpa using List.find?_some hGet
    have hId : Keyed.id first = Keyed.id row :=
      (hOne first (List.mem_append_left _ hMem) row
        List.mem_concat_self).1 hKey
    have hSides : sides row ∈ (rows.map sides).toFinset := by
      rw [List.mem_toFinset, sides, ← hId, ← hKey]
      exact List.mem_map_of_mem hMem
    change keeper.size = _
    simp [Finset.union_singleton,
      Finset.insert_eq_of_mem hSides, hIndexes.size]
  · have hSides : sides row ∉ (rows.map sides).toFinset := by
      rw [List.mem_toFinset, List.mem_map]
      rintro ⟨other, hOther, hSame⟩
      have hKey := List.find?_eq_none.1 hGet other hOther
      simp [(Prod.mk.inj hSame).2] at hKey
    change keeper.size + 1 = _
    simp [Finset.union_singleton,
      Finset.card_insert_of_notMem hSides, hIndexes.size]

/- One more row is kept, which goes with the earlier ones. -/
theorem keep (hIndexes : keeper.Indexes rows) :
    (keeper.keep row).2.Indexes (rows ++ [row]) :=
  ⟨hIndexes.get?_keep row, hIndexes.lookup?_keep hOne,
    hIndexes.size_keep hOne⟩

end One

/- However a keeper was asked, it finds the rows it kept. -/
theorem after
    {asked : List (Keeping ρ)}
    (hOne : OneToOne (Keyed.key : ρ → κ) Keyed.id
      (Keeping.kept asked)) :
    (Keeper.after asked : Keeper κ ρ).Indexes
      (Keeping.kept asked) := by
  induction asked using List.reverseRecOn with
  | nil => exact empty
  | append_singleton asked last ih =>
      rw [after_concat]
      cases last with
      | keep row =>
          rw [Keeping.kept_keep] at hOne ⊢
          exact (ih hOne.of_concat).keep hOne
      | clear =>
          rw [Keeping.kept_clear]
          exact empty

end Indexes

/-
  A row is found by its key and by its identity as the first
  one that was kept of those that share them.
-/
theorem Indexes.finds
    {asked : List (Keeping ρ)}
    (hOne : OneToOne (Keyed.key : ρ → κ) Keyed.id
      (Keeping.kept asked))
    {row : ρ}
    (hRow : row ∈ Keeping.kept asked) :
    ∃ first,
      ((Keeping.kept asked).find? fun other =>
        (Keyed.key other : κ) = Keyed.key row) =
          some first ∧
      Keyed.id first = Keyed.id row ∧
      (Keeper.after asked : Keeper κ ρ).get?
        (Keyed.key row) = some first ∧
      (Keeper.after asked : Keeper κ ρ).lookup?
        (Keyed.id row) = some first := by
  have hIndexes := Indexes.after hOne
  cases hFind : (Keeping.kept asked).find? fun other =>
      (Keyed.key other : κ) = Keyed.key row with
  | none => simpa using List.find?_eq_none.1 hFind row hRow
  | some first =>
      have hById := hOne.find?_eq hRow ▸ hFind
      refine ⟨first, rfl, by simpa using List.find?_some hById,
        ?_, ?_⟩
      · rw [hIndexes.get?, hFind]
      · rw [hIndexes.lookup?, hById]

end Keeper

------------------------------------------------------------
-- Keepers of values
------------------------------------------------------------

namespace ValueKeeper

/- Do what is asked. -/
def take (keeper : ValueKeeper) :
    Keeping (Scalar × Int) → ValueKeeper
  | .keep (value, id) => keeper.keep value id
  | .clear => .empty

/- A new keeper, asked for one thing after another. -/
def after (asked : List (Keeping (Scalar × Int))) :
    ValueKeeper :=
  asked.foldl take .empty

/- Pairs share both sides or none. -/
def Paired (keeper : ValueKeeper) : Prop :=
  OneToOne (fun pair => pair.1.normalized) Prod.snd
    keeper.pairs

variable {keeper : ValueKeeper}
variable {value other : Scalar} {id : Int}

theorem get?_eq_some_iff :
    keeper.get? value = some id ↔
      ∃ pair, (keeper.pairs.find? fun pair =>
        pair.1.normalized = value.normalized) = some pair ∧
          pair.2 = id := by
  simp only [get?, Scalar.same_eq_decide, Option.map_eq_some_iff]

theorem lookup?_eq_some_iff :
    keeper.lookup? id = some value ↔
      ∃ pair, (keeper.pairs.find? fun pair =>
        pair.2 = id) = some pair ∧ pair.1 = value := by
  simp only [lookup?, beq_eq_decide, Option.map_eq_some_iff]

theorem overlaps_eq_false_iff {pair : Scalar × Int} :
    overlaps value id pair = false ↔
      pair.1.normalized ≠ value.normalized ∧
        pair.2 ≠ id := by
  simp [overlaps, Scalar.same_eq_decide]

theorem mem_keep_iff {pair : Scalar × Int} :
    pair ∈ (keeper.keep value id).pairs ↔
      pair = (value, id) ∨ pair ∈ keeper.pairs ∧
        pair.1.normalized ≠ value.normalized ∧
          pair.2 ≠ id := by
  simp [keep, overlaps_eq_false_iff]

namespace Paired

/- A pair that shares a side with the new one is gone. -/
theorem keep
    (hPaired : keeper.Paired)
    (value : Scalar)
    (id : Int) :
    (keeper.keep value id).Paired := by
  intro first hFirst second hSecond
  rcases mem_keep_iff.1 hFirst with
    rfl | ⟨hFirst, hValue, hId⟩ <;>
    rcases mem_keep_iff.1 hSecond with
      rfl | ⟨hSecond, hValue', hId'⟩
  · simp
  · simp [hValue'.symm, hId'.symm]
  · simp [hValue, hId]
  · exact hPaired first hFirst second hSecond

theorem after (asked : List (Keeping (Scalar × Int))) :
    (ValueKeeper.after asked).Paired := by
  induction asked using List.reverseRecOn with
  | nil => exact fun _ hNone => absurd hNone List.not_mem_nil
  | append_singleton asked last ih =>
      rw [ValueKeeper.after, List.foldl_append]
      cases last with
      | keep given => exact ih.keep given.1 given.2
      | clear =>
          exact fun _ hNone => absurd hNone List.not_mem_nil

/- The scalar of an identity is the one that it is found by. -/
theorem get?_eq_some_iff_lookup? (hPaired : keeper.Paired) :
    keeper.get? value = some id ↔
      ∃ found, keeper.lookup? id = some found ∧
        found.same value = true := by
  simp only [get?_eq_some_iff, lookup?_eq_some_iff,
    Scalar.same_iff_normalized]
  constructor
  · rintro ⟨pair, hFind, rfl⟩
    rcases hPaired.find?_eq_some_iff.1 hFind with
      ⟨hValue, hById⟩
    exact ⟨pair.1, ⟨pair, hById, rfl⟩, hValue⟩
  · rintro ⟨_, ⟨pair, hFind, rfl⟩, hValue⟩
    rcases hPaired.symm.find?_eq_some_iff.1 hFind with
      ⟨hId, hByValue⟩
    exact ⟨pair, by rw [← hValue]; exact hByValue, hId⟩

/- Any pair of a scalar gives its identity. -/
theorem get?_eq_some_iff_mem (hPaired : keeper.Paired) :
    keeper.get? value = some id ↔
      ∃ pair ∈ keeper.pairs,
        pair.1.normalized = value.normalized ∧
          pair.2 = id := by
  rw [get?_eq_some_iff]
  constructor
  · rintro ⟨pair, hFind, hId⟩
    exact ⟨pair, List.mem_of_find?_eq_some hFind,
      by simpa using List.find?_some hFind, hId⟩
  · rintro ⟨pair, hMem, hValue, hId⟩
    rw [← hValue]
    cases hFind : keeper.pairs.find? fun other =>
        other.1.normalized = pair.1.normalized with
    | none =>
        simpa using List.find?_eq_none.1 hFind pair hMem
    | some found =>
        have hSame : found.1.normalized =
            pair.1.normalized := by
          simpa using List.find?_some hFind
        have hFound := List.mem_of_find?_eq_some hFind
        exact ⟨found, rfl,
          ((hPaired found hFound pair hMem).1 hSame).trans hId⟩

/- A new pair leaves the pairs that share no side with it. -/
theorem get?_keep_iff
    (hPaired : keeper.Paired)
    {later : Int} :
    (keeper.keep value id).get? other = some later ↔
      (value.same other = true ∧ id = later) ∨
      (value.same other = false ∧ id ≠ later ∧
        keeper.get? other = some later) := by
  rw [(hPaired.keep value id).get?_eq_some_iff_mem,
    hPaired.get?_eq_some_iff_mem, Scalar.same_eq_decide,
    decide_eq_true_iff, decide_eq_false_iff_not]
  simp only [mem_keep_iff]
  constructor
  · rintro ⟨pair, rfl | ⟨hMem, hValue, hId⟩, hSame, rfl⟩
    · exact .inl ⟨hSame, rfl⟩
    · exact .inr ⟨fun hEq => hValue (hSame.trans hEq.symm),
        hId.symm, pair, hMem, hSame, rfl⟩
  · rintro (⟨hSame, rfl⟩ |
      ⟨hValue, hId, pair, hMem, hSame, rfl⟩)
    · exact ⟨_, .inl rfl, hSame, rfl⟩
    · exact ⟨pair, .inr ⟨hMem,
        fun hEq => hValue (hEq.symm.trans hSame), hId.symm⟩,
        hSame, rfl⟩

end Paired

end ValueKeeper

------------------------------------------------------------
-- All keepers
------------------------------------------------------------

/-
  A keeper of rows whose keys and identities go with each
  other finds a row by its key if and only if it finds it by
  its identity.  Every row that was kept since all was
  forgotten is found by both, as the first one of its key
  with the kind that it had.  What keeping a row gives is
  found by both then.  The size is the number of rows, those
  with the same sides counted once.

  A keeper of values finds an identity for a scalar if and
  only if it finds an equal scalar for the identity, whatever
  was kept.  The last pair that was kept is found, and those
  that share no side with it are found as before.
-/
theorem Keeper.indexes_agree
    {κ ρ : Type}
    [DecidableEq κ] [Keyed ρ κ]
    {asked : List (Keeping ρ)}
    (hOne : OneToOne (Keyed.key : ρ → κ) Keyed.id
      (Keeping.kept asked))
    (paired : List (Keeping (Scalar × Int))) :
    (∀ (key : κ) (row : ρ),
      (Keeper.after asked).get? key = some row ↔
        Keyed.key row = key ∧
          (Keeper.after asked).lookup? (Keyed.id row) =
            some row) ∧
    (∀ (id : Int) (row : ρ),
      (Keeper.after asked).lookup? id = some row ↔
        Keyed.id row = id ∧
          (Keeper.after asked).get? (Keyed.key row) =
            some row) ∧
    (∀ (key : κ) (row : ρ),
      (Keeper.after asked).get? key = some row →
        row ∈ Keeping.kept asked) ∧
    (∀ row ∈ Keeping.kept asked, ∃ first,
      ((Keeping.kept asked).find? fun other =>
        (Keyed.key other : κ) = Keyed.key row) =
          some first ∧
      Keyed.id first = Keyed.id row ∧
      (Keeper.after asked).get? (Keyed.key row) =
        some first ∧
      (Keeper.after asked).lookup? (Keyed.id row) =
        some first) ∧
    (∀ row : ρ,
      OneToOne (Keyed.key : ρ → κ) Keyed.id
          (Keeping.kept asked ++ [row]) →
        ((Keeper.after asked).keep row).2.get?
            (Keyed.key row) =
          some ((Keeper.after asked).keep row).1 ∧
        ((Keeper.after asked).keep row).2.lookup?
            (Keyed.id row) =
          some ((Keeper.after asked).keep row).1) ∧
    (Keeper.after asked).size =
      ((Keeping.kept asked).map sides).toFinset.card ∧
    (∀ value id,
      (ValueKeeper.after paired).get? value = some id ↔
        ∃ found,
          (ValueKeeper.after paired).lookup? id =
              some found ∧
            found.same value = true) ∧
    ∀ value id other later,
      ((ValueKeeper.after paired).keep value id).get? other =
          some later ↔
        (value.same other = true ∧ id = later) ∨
        (value.same other = false ∧ id ≠ later ∧
          (ValueKeeper.after paired).get? other =
            some later) := by
  have hIndexes := Indexes.after hOne
  refine ⟨fun key row => ?_, fun id row => ?_,
    fun key row hGet => ?_, fun row => Indexes.finds hOne,
    fun row hMore => ?_, hIndexes.size, fun value id => ?_,
    fun value id other later => ?_⟩
  · rw [hIndexes.get?, hIndexes.lookup?]
    exact hOne.find?_eq_some_iff
  · rw [hIndexes.get?, hIndexes.lookup?]
    exact hOne.symm.find?_eq_some_iff
  · rw [hIndexes.get?] at hGet
    exact List.mem_of_find?_eq_some hGet
  · have hKept := hIndexes.keep hMore
    rw [hKept.get?, hKept.lookup?]
    exact ⟨hIndexes.find?_key row, hIndexes.find?_id hMore⟩
  · exact (ValueKeeper.Paired.after
      paired).get?_eq_some_iff_lookup?
  · exact (ValueKeeper.Paired.after paired).get?_keep_iff

namespace Keeping

/- An identity is used again, and a kind is mistaken later. -/
def reusing : List (Keeping Table) :=
  [.keep ⟨1, "a", true⟩, .clear, .keep ⟨1, "b", true⟩,
    .keep ⟨2, "a", false⟩, .keep ⟨1, "b", false⟩]

/- Two tables have an attribute of one name. -/
def sharing : List (Keeping Attribute) :=
  [.keep ⟨5, 1, "x", true⟩, .keep ⟨6, 2, "x", false⟩,
    .keep ⟨5, 1, "x", false⟩]

/- Either side of a pair is taken when it is kept. -/
def crossing : List (Keeping (Scalar × Int)) :=
  [.keep (.number .zero, 1), .keep (.text "0", 2),
    .keep (.number Number.zero.neg, 2)]

end Keeping

/-
  A kept table and a kept attribute have their first kinds,
  and of all the pairs the last one is left, which both zeros
  find.
-/
theorem Keeper.indexes_agree_reused :
    OneToOne Keyed.key Keyed.id
      (Keeping.kept Keeping.reusing) ∧
    (Keeper.after Keeping.reusing).get? "b" =
      some ⟨1, "b", true⟩ ∧
    (Keeper.after Keeping.reusing).lookup? 1 =
      some ⟨1, "b", true⟩ ∧
    (Keeper.after Keeping.reusing).size = 2 ∧
    OneToOne Keyed.key Keyed.id
      (Keeping.kept Keeping.sharing) ∧
    (Keeper.after Keeping.sharing).get? (1, "x") =
      some ⟨5, 1, "x", true⟩ ∧
    (Keeper.after Keeping.sharing).lookup? 5 =
      some ⟨5, 1, "x", true⟩ ∧
    (Keeper.after Keeping.sharing).size = 2 ∧
    (ValueKeeper.after Keeping.crossing).lookup? 2 =
      some (.number Number.zero.neg) ∧
    (ValueKeeper.after Keeping.crossing).get? (.number .zero) =
      some 2 := by
  have hReusing : OneToOne Keyed.key Keyed.id
      (Keeping.kept Keeping.reusing) := by
    decide
  have hSharing : OneToOne Keyed.key Keyed.id
      (Keeping.kept Keeping.sharing) := by
    decide
  have hLast : (ValueKeeper.after Keeping.crossing).lookup? 2 =
      some (.number Number.zero.neg) := by
    decide
  rcases indexes_agree hReusing Keeping.crossing with
    ⟨-, -, -, hTables, -, hSize, hValues, -⟩
  rcases indexes_agree hSharing Keeping.crossing with
    ⟨-, -, -, hAttributes, -, hSize', -⟩
  rcases hTables ⟨1, "b", false⟩ (by decide) with
    ⟨table, hTable, -, hGet, hLookup⟩
  rcases hAttributes ⟨5, 1, "x", false⟩ (by decide) with
    ⟨known, hKnown, -, hGet', hLookup'⟩
  have hFirst : table = ⟨1, "b", true⟩ :=
    Option.some.inj (hTable.symm.trans (by decide))
  have hFirst' : known = ⟨5, 1, "x", true⟩ :=
    Option.some.inj (hKnown.symm.trans (by decide))
  subst hFirst hFirst'
  exact ⟨hReusing, hGet, hLookup, hSize.trans (by decide),
    hSharing, hGet', hLookup', hSize'.trans (by decide), hLast,
    (hValues _ _).2 ⟨_, hLast, by decide⟩⟩

end SparseTables
