import SparseTables.Proofs.Tasks.Abides
import SparseTables.Session.Items
import SparseTables.Session.Values

/-
  This file shows what tasks learn from the dictionaries and
  from the items while others use the store as well.

  What is found in the caches may be gone already, but only
  with a doomed table; what the store answers is there.

  Main declarations:
    * `Tables.learns_resolve`
    * `Attributes.learns_resolve`
    * `Values.learns_resolve`
    * `Items.learns_resolve`
    * `Items.learns_setSlots`
-/

namespace SparseTables

open Program

------------------------------------------------------------
-- Statements that only read
------------------------------------------------------------

/- What is read is there when it is read. -/
theorem Program.learns_read
    {raze : Prop}
    {scene : Scene}
    (asked : Statement)
    (hSpares : asked.Spares)
    {read : Contents → asked.Answer}
    (hReads : ∀ clock contents,
      asked.run clock contents =
        .ok (read contents, contents)) :
    (run asked).Learns raze
      (fun given later => given = read later.contents)
      scene := by
  apply learns_run asked hSpares
  intro clock now after answer _ _ hRun
  rw [hReads clock now.contents, Except.ok.injEq,
    Prod.mk.injEq] at hRun
  rw [← hRun.1, ← hRun.2]

variable {raze : Prop}

------------------------------------------------------------
-- Tables
------------------------------------------------------------

namespace Tables

theorem learns_add
    (name : String)
    (numeric : Bool)
    (scene : Scene) :
    (run (.addTable name numeric)).Learns raze
      (fun id later =>
        ⟨id, name, numeric⟩ ∈ later.contents.tables.rows)
      scene := by
  apply learns_run (.addTable name numeric) trivial
  intro clock now after id _ _ hRun
  rcases Contents.addTable_eq_ok hRun with ⟨-, -, hAfter⟩
  rw [hAfter]
  exact Contents.mem_push_iff.2 (Or.inr rfl)

theorem learns_findOrAdd
    (name : String)
    (intent : Intent)
    (numeric : Bool)
    (scene : Scene) :
    (findOrAdd name intent numeric).Learns raze
      (fun given later => ∀ row, given = some row →
        later.KnowsTable row.id) scene := by
  have hKeep {row : Table} {later : Scene}
      (hRow : row ∈ later.contents.tables.rows) :
      (some <$> keepTable row).Learns raze
        (fun given later => ∀ row, given = some row →
          later.KnowsTable row.id) later := by
    apply (learns_keepTable hRow).map
    rintro kept last hKept _ ⟨⟩
    exact hKept
  refine (learns_read (.tableNamed name) trivial
    fun _ _ => rfl).bind fun given later _ hGiven => ?_
  cases given with
  | some row =>
      exact hKeep (List.mem_of_find?_eq_some hGiven.symm)
  | none =>
      cases intent with
      | lookup =>
          exact learns_pure fun _ hNone => by cases hNone
      | create =>
          exact (learns_add name numeric later).bind
            fun id last _ hRow => hKeep hRow

/- A table that is found was there at some time. -/
theorem learns_resolve
    (policy : Policy)
    (name : String)
    (intent : Intent)
    (numeric : Bool)
    (scene : Scene) :
    (resolve policy name intent numeric).Learns raze
      (fun given later => ∀ row, given = some row →
        later.KnowsTable row.id) scene := by
  refine learns_check_bind fun _ _ => ?_
  refine learns_caches_bind
    fun caches whole hCovers hMirrors => ?_
  cases hGet : caches.tables.get? name with
  | none =>
      exact policy.learns_run _ fun later _ =>
        learns_findOrAdd name intent numeric later
  | some kept =>
      refine learns_pure fun row hSame => ?_
      cases hSame
      exact hCovers.tables kept
        (hMirrors.tables.get?_eq_some hGet).1

theorem learns_byId
    (id : Int)
    (scene : Scene) :
    (byId id).Learns raze (fun _ _ => True) scene := by
  refine learns_caches_bind fun caches whole _ _ => ?_
  cases caches.tables.lookup? id with
  | some kept => exact learns_pure trivial
  | none =>
      refine (learns_read (.tableById id) trivial
        fun _ _ => rfl).bind fun given later _ hGiven => ?_
      cases given with
      | none => exact learns_pure trivial
      | some row =>
          exact (learns_keepTable
            (List.mem_of_find?_eq_some hGiven.symm)).map
              fun _ _ _ => trivial

end Tables

------------------------------------------------------------
-- Attributes
------------------------------------------------------------

namespace Attributes

theorem learns_add
    (tableId : Int)
    (name : String)
    (numeric : Bool)
    (scene : Scene) :
    (run (.addAttribute tableId name numeric)).Learns raze
      (fun id later => ⟨id, tableId, name, numeric⟩ ∈
        later.contents.attributes.rows) scene := by
  apply learns_run (.addAttribute tableId name numeric) trivial
  intro clock now after id _ _ hRun
  rcases Contents.addAttribute_eq_ok hRun with
    ⟨-, -, -, hAfter⟩
  rw [hAfter]
  exact Contents.mem_push_iff.2 (Or.inr rfl)

theorem learns_findOrAdd
    (tableId : Int)
    (name : String)
    (intent : Intent)
    (numeric : Bool)
    (scene : Scene) :
    (findOrAdd tableId name intent numeric).Learns raze
      (fun given later => ∀ row, given = some row →
        later.KnowsAttribute tableId row.id) scene := by
  have hKeep {row : Attribute} {later : Scene}
      (hTable : row.tableId = tableId)
      (hRow : row ∈ later.contents.attributes.rows) :
      (some <$> keepAttribute row).Learns raze
        (fun given later => ∀ row, given = some row →
          later.KnowsAttribute tableId row.id) later := by
    apply (learns_keepAttribute hRow).map
    rintro kept last hKept _ ⟨⟩
    exact hTable ▸ hKept
  refine (learns_read (.attributeNamed tableId name)
    trivial fun _ _ => rfl).bind fun given later _ hGiven => ?_
  cases given with
  | some row =>
      have hKey := List.find?_some hGiven.symm
      simp only [Bool.and_eq_true, beq_iff_eq] at hKey
      exact hKeep hKey.1
        (List.mem_of_find?_eq_some hGiven.symm)
  | none =>
      cases intent with
      | lookup =>
          exact learns_pure fun _ hNone => by cases hNone
      | create =>
          exact (learns_add tableId name numeric later).bind
            fun id last _ hRow => hKeep rfl hRow

/- An attribute that is found is one of its table. -/
theorem learns_resolve
    (policy : Policy)
    (tableId : Int)
    (name : String)
    (intent : Intent)
    (numeric : Bool)
    (scene : Scene) :
    (resolve policy tableId name intent numeric).Learns raze
      (fun given later => ∀ row, given = some row →
        later.KnowsAttribute tableId row.id) scene := by
  refine learns_check_bind fun _ _ => ?_
  refine learns_caches_bind
    fun caches whole hCovers hMirrors => ?_
  cases hGet : caches.attributes.get? (tableId, name) with
  | none =>
      exact policy.learns_run _ fun later _ =>
        learns_findOrAdd tableId name intent numeric later
  | some kept =>
      refine learns_pure fun row hSame => ?_
      cases hSame
      rcases hMirrors.attributes.get?_eq_some hGet with
        ⟨hRow, hKey⟩
      have hTable : kept.tableId = tableId :=
        congrArg Prod.fst hKey
      exact hTable ▸ hCovers.knowsAttribute hRow

theorem learns_byId
    (id : Int)
    (scene : Scene) :
    (byId id).Learns raze (fun _ _ => True) scene := by
  refine learns_caches_bind fun caches whole _ _ => ?_
  cases caches.attributes.lookup? id with
  | some kept => exact learns_pure trivial
  | none =>
      refine (learns_read (.attributeById id) trivial
        fun _ _ => rfl).bind fun given later _ hGiven => ?_
      cases given with
      | none => exact learns_pure trivial
      | some row =>
          exact (learns_keepAttribute
            (List.mem_of_find?_eq_some hGiven.symm)).map
              fun _ _ _ => trivial

end Attributes

------------------------------------------------------------
-- Values
------------------------------------------------------------

namespace Values

theorem learns_add
    (content : Scalar)
    (scene : Scene) :
    (run (.addValue content)).Learns raze
      (fun id later => ⟨id, content.normalized⟩ ∈
        later.contents.values.rows) scene := by
  apply learns_run (.addValue content) trivial
  intro clock now after id _ _ hRun
  rcases Contents.addValue_eq_ok hRun with ⟨-, -, hAfter⟩
  rw [hAfter]
  exact Contents.mem_push_iff.2 (Or.inr rfl)

theorem learns_findOrAdd
    (content : Scalar)
    (intent : Intent)
    (scene : Scene) :
    (findOrAdd content intent).Learns raze
      (fun given later => ∀ id, given = some id →
        ∀ tableId, later.KnowsValue tableId id) scene := by
  have hKeep {id : Int} {later : Scene}
      (hRow : ⟨id, content.normalized⟩ ∈
        later.contents.values.rows) :
      (keepValue content id >>= fun _ =>
        pure (some id)).Learns raze
          (fun given later => ∀ id, given = some id →
            ∀ tableId, later.KnowsValue tableId id) later := by
    refine (learns_keepValue hRow).bind
      fun _ last _ hKnown => learns_pure ?_
    rintro _ ⟨⟩
    exact hKnown
  refine (learns_read (.valueOf content) trivial
    fun _ _ => rfl).bind fun given later _ hGiven => ?_
  cases given with
  | some row =>
      have hRow := List.mem_of_find?_eq_some hGiven.symm
      have hSame := List.find?_some hGiven.symm
      rw [Scalar.same_iff_normalized,
        later.formed.normalized row hRow] at hSame
      exact hKeep (hSame ▸ hRow)
  | none =>
      cases intent with
      | lookup =>
          exact learns_pure fun _ hNone => by cases hNone
      | create =>
          exact (learns_add content later).bind
            fun id last _ hRow => hKeep hRow

/- A value that is found is for the slots of any table. -/
theorem learns_resolve
    (policy : Policy)
    (content : Scalar)
    (intent : Intent)
    (scene : Scene) :
    (resolve policy content intent).Learns raze
      (fun given later => ∀ id, given = some id →
        ∀ tableId, later.KnowsValue tableId id) scene := by
  refine learns_check_bind fun _ _ => ?_
  refine learns_caches_bind
    fun caches whole hCovers hMirrors => ?_
  cases hGet : caches.values.get? content with
  | none =>
      exact policy.learns_run _ fun later _ =>
        learns_findOrAdd content intent later
  | some kept =>
      refine learns_pure fun id hSame => ?_
      cases hSame
      exact hCovers.knowsValue
        (hMirrors.values.get?_eq_some hGet)

theorem learns_byId
    (id : Int)
    (scene : Scene) :
    (byId id).Learns raze (fun _ _ => True) scene := by
  refine learns_caches_bind fun caches whole _ _ => ?_
  cases caches.values.lookup? id with
  | some kept => exact learns_pure trivial
  | none =>
      refine (learns_read (.valueById id) trivial
        fun _ _ => rfl).bind fun given later _ hGiven => ?_
      cases given with
      | none => exact learns_pure trivial
      | some row =>
          have hRow := List.mem_of_find?_eq_some hGiven.symm
          have hId := List.find?_some hGiven.symm
          rw [beq_iff_eq] at hId
          refine (learns_keepValue ?_).bind
            fun _ _ _ _ => learns_pure trivial
          rw [later.formed.normalized row hRow, ← hId]
          exact hRow

end Values

------------------------------------------------------------
-- Items
------------------------------------------------------------

namespace Items

/- The row of an item tells whose it is. -/
theorem knowsItem_of_mem
    {scene : Scene}
    {row : ItemRow}
    (hRow : row ∈ scene.contents.items.rows) :
    scene.KnowsItem row.tableId row.id where
  given := scene.formed.items.bounded row hRow
  owner item hItem hId := by
    rw [scene.formed.items.eq_of_id hItem hRow hId]

theorem learns_add
    (tableId valueId : Int)
    (scene : Scene) :
    (run (.addItem tableId valueId)).Learns raze
      (fun id later => later.KnowsItem tableId id) scene := by
  apply learns_run (.addItem tableId valueId) trivial
  intro clock now after id _ _ hRun
  rcases Contents.addItem_eq_ok hRun with ⟨-, -, hAfter⟩
  have hRow :
      ⟨id, tableId, valueId, clock.cell, clock.cell⟩ ∈
        after.contents.items.rows := by
    rw [hAfter]
    exact Contents.mem_push_iff.2 (Or.inr rfl)
  exact knowsItem_of_mem hRow

/- An item that is found is one of its table. -/
theorem learns_resolve
    (policy : Policy)
    (tableId valueId : Int)
    (intent : Intent)
    (scene : Scene) :
    (resolve policy tableId valueId intent).Learns raze
      (fun given later => ∀ id, given = some id →
        later.KnowsItem tableId id) scene := by
  refine policy.learns_run _ fun start _ => ?_
  refine (learns_read (.itemOf tableId valueId)
    trivial fun _ _ => rfl).bind
      fun given later _ hGiven => ?_
  cases given with
  | some row =>
      have hKey := List.find?_some hGiven.symm
      simp only [Bool.and_eq_true, beq_iff_eq] at hKey
      refine learns_pure fun id hSame => ?_
      cases hSame
      exact hKey.1 ▸ knowsItem_of_mem
        (List.mem_of_find?_eq_some hGiven.symm)
  | none =>
      cases intent with
      | lookup =>
          exact learns_pure fun _ hNone => by cases hNone
      | create =>
          refine (learns_add tableId valueId later).map
            fun id last hKnown other hSame => ?_
          cases hSame
          exact hKnown

theorem learns_byId
    (id : Int)
    (scene : Scene) :
    (byId id).Learns raze (fun _ _ => True) scene := by
  refine (learns_any (.itemById id) trivial).bind
    fun given later _ _ => ?_
  cases given with
  | none => exact learns_pure trivial
  | some row =>
      exact learns_check_bind fun _ _ => learns_pure trivial

/- What a transaction may do with slots of one item. -/
def Suits
    (scene : Scene)
    (id : Int)
    (changes : List SlotChange) : Prop :=
  ∀ change ∈ changes, ∀ valueId,
    change.valueId = some valueId →
      scene.Fits ⟨id, change.attributeId, valueId⟩

theorem abides_applyChanges
    (id : Int)
    {changes : List SlotChange}
    {scene : Scene}
    (hSuits : Suits scene id changes) :
    (applyChanges id changes).Abides False
      (fun _ phase _ => phase = .inside) .inside scene := by
  induction changes generalizing scene with
  | nil => rfl
  | cons change rest ih =>
      have hRest {later : Scene}
          (hLater : scene.Becomes later) :
          (applyChanges id rest).Abides False
            (fun _ phase _ => phase = .inside) .inside
              later :=
        ih fun other hOther valueId hValue => hLater.fits
          (hSuits other (List.mem_cons_of_mem _ hOther)
            valueId hValue)
      refine abides_runHeld_bind (fun _ _ => trivial)
        fun _ later hLater => ?_
      cases hValue : change.valueId with
      | none => exact hRest hLater
      | some valueId =>
          have hFits := hSuits change List.mem_cons_self
            valueId hValue
          exact abides_runHeld_bind
            (fun now hNow => (hLater.trans hNow).fits hFits)
            fun _ last hLast => hRest (hLater.trans hLast)

/- All slots that are added fit. -/
theorem learns_setSlots
    (id : Int)
    {changes : List SlotChange}
    {scene : Scene}
    (hSuits : Suits scene id changes) :
    (setSlots id changes).Learns raze (fun _ _ => True)
      scene := by
  refine learns_transaction fun later hLater => ?_
  refine abides_runHeld_bind (fun _ _ => trivial)
    fun touched last hLast => ?_
  have hRest :=
    abides_applyChanges id fun change hChange valueId hValue =>
      (hLater.trans hLast).fits
        (hSuits change hChange valueId hValue)
  dsimp only
  split
  · rfl
  · exact hRest

theorem abides_removeEach
    (ids : List Int)
    (scene : Scene) :
    (removeEach ids).Abides False
      (fun _ phase _ => phase = .inside) .inside scene := by
  induction ids generalizing scene with
  | nil => rfl
  | cons id rest ih =>
      refine abides_runHeld_bind (fun _ _ => trivial)
        fun _ later _ => ?_
      apply (ih later).andThen
      rintro (error | more) phase last rfl <;> rfl

theorem learns_remove
    (ids : List Int)
    (scene : Scene) :
    (remove ids).Learns raze (fun _ _ => True) scene :=
  learns_transaction fun later _ =>
    abides_removeEach ids later

end Items

end SparseTables
