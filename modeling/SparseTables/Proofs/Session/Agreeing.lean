import SparseTables.Proofs.Contents.Entries
import SparseTables.Proofs.Program.Agreeing
import SparseTables.Proofs.Session.Settled

/-
  This file shows that the calls on the dictionaries and the
  items agree whatever is mirrored by the caches, also if
  items and slots refer to what is gone.

  A row that is in the caches is the one that the store would
  give, and a row that is not there is added to the store.

  Main declarations:
    * `Contents.Found`
    * `Tables.comesTo_resolve`
    * `Tables.sure_resolve`
    * `Attributes.comesTo_resolve`
    * `Attributes.sure_resolve`
    * `Values.comesTo_resolve`
    * `Values.sure_resolve`
    * `Values.ends_byId`
    * `Values.agrees_byId`
    * `Items.comesTo_resolve`
    * `Items.sure_resolve`
    * `Items.sure_setSlots`
    * `Items.sure_remove`
-/

namespace SparseTables

open Program

------------------------------------------------------------
-- Searches
------------------------------------------------------------

namespace Contents

variable {ρ α : Type}

/-
  What a search in keyed contents gives, and what it leaves.
  At most the row that is sought is new, and only if it was
  not there and may be created.
-/
structure Found
    (find : Contents → Option ρ)
    (give : ρ → α)
    (key : Key)
    (kind : Option Bool)
    (intent : Intent)
    (before after : Contents)
    (found : Option α) : Prop where
  eq : found = (find after).map give
  keyed : after.Keyed
  adds : before.Adds (some key) kind after
  same : intent = .lookup ∨ (find before).isSome →
    after = before
  isThere : intent = .create → found.isSome

namespace Found

variable {find : Contents → Option ρ} {give : ρ → α}
variable {key : Key} {kind : Option Bool} {intent : Intent}
variable {before after : Contents} {row : ρ}

/- A row that is there is given. -/
theorem there
    (hKeyed : before.Keyed)
    (hFind : find before = some row) :
    before.Found find give key kind intent before
      (some (give row)) :=
  ⟨by simp [hFind], hKeyed, .refl _ _ _, fun _ => rfl,
    fun _ => rfl⟩

theorem absent
    (hKeyed : before.Keyed)
    (hFind : find before = none) :
    before.Found find give key kind .lookup before none :=
  ⟨by simp [hFind], hKeyed, .refl _ _ _, fun _ => rfl,
    nofun⟩

/- A row that is not there is added. -/
theorem added
    (hKeyed : after.Keyed)
    (hBefore : find before = none)
    (hAdds : before.Adds (some key) kind after)
    (hAfter : find after = some row) :
    before.Found find give key kind .create after
      (some (give row)) :=
  ⟨by simp [hAfter], hKeyed, hAdds, by simp [hBefore],
    fun _ => rfl⟩

/- Where there is a row, there is nothing else to give. -/
theorem of_there
    {found : Option α}
    (hFound : before.Found find give key kind intent after
      found)
    (hFind : find before = some row) :
    found = some (give row) ∧ after = before := by
  rcases hFound.same (Or.inr (by simp [hFind])) with rfl
  exact ⟨by simp [hFound.eq, hFind], rfl⟩

/- What is created is there. -/
theorem exists_row
    {found : Option α}
    (hFound : before.Found find give key kind .create after
      found) :
    ∃ row, find after = some row ∧
      found = some (give row) := by
  rcases Option.isSome_iff_exists.1 (hFound.isThere rfl) with
    ⟨given, rfl⟩
  rcases Option.map_eq_some_iff.1 hFound.eq.symm with
    ⟨row, hRow, rfl⟩
  exact ⟨row, hRow, rfl⟩

end Found

end Contents

namespace Program

variable {α : Type} {clock : Clock}
variable {contents after : Contents}

/- What comes next may look at the caches. -/
theorem ends_caches
    {engine last : Engine}
    {caches kept : Caches}
    {outcome : Except Error α}
    {rest : Caches → Program α}
    (hRest : (rest caches).Ends clock engine caches outcome
      last kept) :
    (Program.caches >>= rest).Ends clock engine caches outcome
      last kept :=
  hRest

theorem comesTo_caches
    {outcome : Except Error α}
    {rest : Caches → Program α}
    (hRest : ∀ caches, caches.Mirrors contents → ∃ kept,
      (rest caches).Ends clock (.ofContents contents) caches
        outcome (.ofContents after) kept ∧
      kept.Mirrors after) :
    (caches >>= rest).ComesTo clock contents outcome after :=
  hRest

theorem BoundTo.caches_bind
    {may : Statement → Prop}
    {rest : Caches → Program α}
    (hRest : ∀ caches, (rest caches).BoundTo may) :
    (caches >>= rest).BoundTo may :=
  hRest

theorem comesTo_keepTable
    (hKeyed : contents.Keyed)
    {row : Table}
    (hRow : row ∈ contents.tables.rows) :
    (keepTable row).ComesTo clock contents (.ok row)
      contents := by
  intro caches hMirrors
  have hGet := hMirrors.get?_keepTable hKeyed hRow
  refine ⟨{ caches with
      tables := (caches.tables.keep row).2 },
    ends_cached ?_, { hMirrors with
      tables := hMirrors.tables.keep hRow }⟩
  simp only [hGet, Option.getD_some]
  exact ends_done _

theorem comesTo_keepAttribute
    (hKeyed : contents.Keyed)
    {row : Attribute}
    (hRow : row ∈ contents.attributes.rows) :
    (keepAttribute row).ComesTo clock contents (.ok row)
      contents := by
  intro caches hMirrors
  have hGet := hMirrors.get?_keepAttribute hKeyed hRow
  refine ⟨{ caches with
      attributes := (caches.attributes.keep row).2 },
    ends_cached ?_, { hMirrors with
      attributes := hMirrors.attributes.keep hRow }⟩
  simp only [hGet, Option.getD_some]
  exact ends_done _

theorem comesTo_keepValue
    {content : Scalar}
    {id : Int}
    (hRow : ⟨id, content.normalized⟩ ∈
      contents.values.rows) :
    (keepValue content id).ComesTo clock contents (.ok ())
      contents :=
  fun _ hMirrors => ⟨_, ends_cached (ends_done _),
    { hMirrors with values := hMirrors.values.keep hRow }⟩

end Program

variable {clock : Clock} {contents : Contents}

------------------------------------------------------------
-- Tables
------------------------------------------------------------

namespace Tables

theorem bound_findOrAdd
    (name : String)
    (intent : Intent)
    (numeric : Bool) :
    (findOrAdd name intent numeric).BoundTo
      Statement.Leaves := by
  refine .bind (.run trivial) fun found => ?_
  cases found with
  | some row => exact fun _ => rfl
  | none =>
      cases intent with
      | lookup => rfl
      | create => exact .bind (.run trivial) fun _ _ => rfl

/- What a search for a table comes to. -/
abbrev Found
    (before : Contents)
    (name : String)
    (intent : Intent)
    (numeric : Bool)
    (after : Contents)
    (found : Option Table) : Prop :=
  before.Found (fun contents => contents.tableNamed? name) id
    (.table name) (some numeric) intent after found

/- A table that is there is found, and may be created. -/
theorem comesTo_findOrAdd
    (hKeyed : contents.Keyed)
    (name : String)
    (intent : Intent)
    (numeric : Bool) :
    ∃ found after,
      (findOrAdd name intent numeric).ComesTo clock contents
        (.ok found) after ∧
      Found contents name intent numeric after found := by
  cases hFind : contents.tableNamed? name with
  | some row =>
      have hRow := (hKeyed.tableNamed?_eq_some_iff.1 hFind).1
      refine ⟨some row, contents, .read rfl ?_,
        .there hKeyed hFind⟩
      rw [hFind]
      exact (comesTo_keepTable hKeyed hRow).map some
  | none =>
      cases intent with
      | lookup =>
          refine ⟨none, contents, .read rfl ?_,
            .absent hKeyed hFind⟩
          rw [hFind]
          exact .done _
      | create =>
          cases hAdd : contents.addTable name numeric with
          | error error =>
              simp [Contents.addTable, hFind] at hAdd
          | ok added =>
              rcases added with ⟨id, after⟩
              have hAfter := hKeyed.addTable hAdd
              have hRow : ⟨id, name, numeric⟩ ∈
                  after.tables.rows := by
                rcases Contents.addTable_eq_ok hAdd with
                  ⟨-, -, rfl⟩
                exact Contents.mem_push_iff.2 (Or.inr rfl)
              refine ⟨some ⟨id, name, numeric⟩, after,
                .read rfl ?_, .added hAfter hFind
                  (Contents.adds_addTable hAdd).1
                  (hAfter.tableNamed?_eq_some_iff.2
                    ⟨hRow, rfl⟩)⟩
              rw [hFind]
              exact (ComesTo.run (.addTable name numeric) hAdd
                (.ofGrows (Contents.addTable_grows hAdd))).bind
                ((comesTo_keepTable hAfter hRow).map some)

/- So it is whatever the caches hold. -/
theorem comesTo_resolve
    (hKeyed : contents.Keyed)
    (policy : Policy)
    {name : String}
    (hCheck : Check.dictionary "Table" name = .ok ())
    (intent : Intent)
    (numeric : Bool) :
    ∃ found after,
      (resolve policy name intent numeric).ComesTo clock
        contents (.ok found) after ∧
      Found contents name intent numeric after found := by
  rcases comesTo_findOrAdd hKeyed name intent numeric with
    ⟨found, after, hAction, hFound⟩
  refine ⟨found, after, ComesTo.bind (.check hCheck)
    (comesTo_caches fun caches hMirrors => ?_), hFound⟩
  cases hGet : caches.tables.get? name with
  | some kept =>
      have hSame := hFound.of_there
        (hKeyed.tableNamed?_eq_some_iff.2
          (hMirrors.tables.get?_eq_some hGet))
      rw [hSame.1, hSame.2]
      exact ⟨caches, ends_done _, hMirrors⟩
  | none => exact hAction.attempts policy _ caches hMirrors

theorem sure_resolve
    (policy : Policy)
    (name : String)
    (intent : Intent)
    (numeric : Bool) :
    (resolve policy name intent numeric).Sure
      Statement.Leaves := by
  refine sure_of_comesTo (.bind (.done _) fun _ =>
    .caches_bind fun caches => ?_)
    fun clock contents hKeyed => ?_
  · cases caches.tables.get? name with
    | some kept => rfl
    | none =>
        exact .attempts policy _
          (bound_findOrAdd name intent numeric)
  · cases hCheck : Check.dictionary "Table" name with
    | error error =>
        exact ⟨_, _, ComesTo.bind_error (.check hCheck)⟩
    | ok _ =>
        rcases comesTo_resolve hKeyed policy hCheck intent
          numeric with ⟨found, after, hComes, -⟩
        exact ⟨_, _, hComes⟩

theorem sure_byId (id : Int) :
    (byId id).Sure Statement.Leaves := by
  refine sure_of_comesTo (.caches_bind fun caches => ?_)
    fun clock contents hKeyed => ⟨.ok (contents.table? id),
      contents, comesTo_caches fun caches hMirrors => ?_⟩
  · cases caches.tables.lookup? id with
    | some kept => rfl
    | none =>
        refine .bind (.run trivial) fun found => ?_
        cases found with
        | none => rfl
        | some row => exact fun _ => rfl
  · cases hGet : caches.tables.lookup? id with
    | some kept =>
        have hFind : contents.table? id = some kept :=
          hKeyed.tables.find?_eq_some_iff.2
            (hMirrors.tables.lookup?_eq_some hGet)
        rw [hFind]
        exact ⟨caches, ends_done _, hMirrors⟩
    | none =>
        refine ComesTo.read rfl ?_ caches hMirrors
        cases hFind : contents.table? id with
        | none => exact .done _
        | some row =>
            have hRow :=
              (hKeyed.tables.find?_eq_some_iff.1 hFind).1
            exact (comesTo_keepTable hKeyed hRow).map some

end Tables

------------------------------------------------------------
-- Attributes
------------------------------------------------------------

namespace Attributes

theorem bound_findOrAdd
    (tableId : Int)
    (name : String)
    (intent : Intent)
    (numeric : Bool) :
    (findOrAdd tableId name intent numeric).BoundTo
      Statement.Leaves := by
  refine .bind (.run trivial) fun found => ?_
  cases found with
  | some row => exact fun _ => rfl
  | none =>
      cases intent with
      | lookup => rfl
      | create => exact .bind (.run trivial) fun _ _ => rfl

/- What a search for an attribute comes to. -/
abbrev Found
    (before : Contents)
    (tableId : Int)
    (name : String)
    (intent : Intent)
    (numeric : Bool)
    (after : Contents)
    (found : Option Attribute) : Prop :=
  before.Found
    (fun contents => contents.attributeNamed? tableId name)
    id (.column tableId name) (some numeric) intent after
    found

/-
  An attribute that is there is found, and may be created if
  its table is there.
-/
theorem comesTo_findOrAdd
    (hKeyed : contents.Keyed)
    (tableId : Int)
    (name : String)
    (intent : Intent)
    (numeric : Bool) :
    (∃ found after,
      (findOrAdd tableId name intent numeric).ComesTo clock
        contents (.ok found) after ∧
      Found contents tableId name intent numeric after
        found) ∨
    ((intent = .create ∧ contents.table? tableId = none) ∧
      contents.attributeNamed? tableId name = none ∧
      ∃ error,
        (findOrAdd tableId name intent numeric).ComesTo clock
          contents (.error error) contents) := by
  cases hFind : contents.attributeNamed? tableId name with
  | some row =>
      have hRow :=
        (hKeyed.attributeNamed?_eq_some_iff.1 hFind).1
      refine Or.inl ⟨some row, contents, .read rfl ?_,
        .there hKeyed hFind⟩
      rw [hFind]
      exact (comesTo_keepAttribute hKeyed hRow).map some
  | none =>
      cases intent with
      | lookup =>
          refine Or.inl ⟨none, contents, .read rfl ?_,
            .absent hKeyed hFind⟩
          rw [hFind]
          exact .done _
      | create =>
          cases hAdd :
            contents.addAttribute tableId name numeric with
          | error error =>
              refine Or.inr ⟨⟨rfl, ?_⟩, rfl, error,
                .read rfl ?_⟩
              · by_contra hTable
                simp [Contents.addAttribute, hFind,
                  hTable] at hAdd
              rw [hFind]
              exact (ComesTo.run_error
                (.addAttribute tableId name numeric)
                hAdd).bind_error
          | ok added =>
              rcases added with ⟨id, after⟩
              have hAfter := hKeyed.addAttribute hAdd
              have hRow : ⟨id, tableId, name, numeric⟩ ∈
                  after.attributes.rows := by
                rcases Contents.addAttribute_eq_ok hAdd with
                  ⟨-, -, -, rfl⟩
                exact Contents.mem_push_iff.2 (Or.inr rfl)
              refine Or.inl
                ⟨some ⟨id, tableId, name, numeric⟩, after,
                  .read rfl ?_, .added hAfter hFind
                    (Contents.adds_addAttribute hAdd).1
                    (hAfter.attributeNamed?_eq_some_iff.2
                      ⟨hRow, rfl, rfl⟩)⟩
              rw [hFind]
              exact (ComesTo.run
                (.addAttribute tableId name numeric)
                hAdd (.ofGrows
                  (Contents.addAttribute_grows hAdd))).bind
                ((comesTo_keepAttribute hAfter hRow).map some)

/- What an attempt finds is found whatever the caches hold. -/
theorem comesTo_of_found
    (hKeyed : contents.Keyed)
    (policy : Policy)
    {tableId : Int}
    {name : String}
    (hCheck : Check.dictionary "Column" name = .ok ())
    {intent : Intent}
    {numeric : Bool}
    {found : Option Attribute}
    {after : Contents}
    (hAction : (findOrAdd tableId name intent
      numeric).ComesTo clock contents (.ok found) after)
    (hFound : Found contents tableId name intent numeric
      after found) :
    (resolve policy tableId name intent numeric).ComesTo
      clock contents (.ok found) after := by
  refine ComesTo.bind (.check hCheck) (comesTo_caches
    fun caches hMirrors => ?_)
  cases hGet : caches.attributes.get? (tableId, name) with
  | some kept =>
      have hRow := hMirrors.attributes.get?_eq_some hGet
      have hSame := hFound.of_there
        (hKeyed.attributeNamed?_eq_some_iff.2
          ⟨hRow.1, Prod.mk.inj hRow.2⟩)
      rw [hSame.1, hSame.2]
      exact ⟨caches, ends_done _, hMirrors⟩
  | none => exact hAction.attempts policy _ caches hMirrors

/- An attribute may be created if its table is there. -/
theorem comesTo_resolve
    (hKeyed : contents.Keyed)
    (policy : Policy)
    {tableId : Int}
    {name : String}
    (hCheck : Check.dictionary "Column" name = .ok ())
    {intent : Intent}
    (hMay : intent = .create →
      (contents.table? tableId).isSome)
    (numeric : Bool) :
    ∃ found after,
      (resolve policy tableId name intent numeric).ComesTo
        clock contents (.ok found) after ∧
      Found contents tableId name intent numeric after
        found := by
  rcases comesTo_findOrAdd hKeyed tableId name intent numeric
    with ⟨found, after, hAction, hFound⟩ |
      ⟨⟨hCreate, hTable⟩, -⟩
  · exact ⟨found, after, comesTo_of_found hKeyed policy hCheck
      hAction hFound, hFound⟩
  · simp [hTable] at hMay
    exact absurd hCreate hMay

theorem sure_resolve
    (policy : Policy)
    (tableId : Int)
    (name : String)
    (intent : Intent)
    (numeric : Bool) :
    (resolve policy tableId name intent numeric).Sure
      Statement.Leaves := by
  refine sure_of_comesTo (.bind (.done _) fun _ =>
    .caches_bind fun caches => ?_)
    fun clock contents hKeyed => ?_
  · cases caches.attributes.get? (tableId, name) with
    | some kept => rfl
    | none =>
        exact .attempts policy _
          (bound_findOrAdd tableId name intent numeric)
  cases hCheck : Check.dictionary "Column" name with
  | error error =>
      exact ⟨_, _, ComesTo.bind_error (.check hCheck)⟩
  | ok _ =>
      rcases comesTo_findOrAdd hKeyed tableId name intent
        numeric with ⟨found, after, hAction, hFound⟩ |
          ⟨-, hAbsent, error, hAction⟩
      · exact ⟨_, _, comesTo_of_found hKeyed policy hCheck
          hAction hFound⟩
      · rcases hAction.attempts_error policy "Names.get_id"
          with ⟨last, hLast⟩
        refine ⟨last, contents, ComesTo.bind (.check hCheck)
          (comesTo_caches fun caches hMirrors => ?_)⟩
        cases hGet : caches.attributes.get? (tableId, name)
          with
        | some kept =>
            have hRow := hMirrors.attributes.get?_eq_some hGet
            have hThere :=
              hKeyed.attributeNamed?_eq_some_iff.2
                ⟨hRow.1, Prod.mk.inj hRow.2⟩
            rw [hAbsent] at hThere
            cases hThere
        | none => exact hLast caches hMirrors

theorem sure_byId (id : Int) :
    (byId id).Sure Statement.Leaves := by
  refine sure_of_comesTo (.caches_bind fun caches => ?_)
    fun clock contents hKeyed =>
      ⟨.ok (contents.attribute? id), contents,
        comesTo_caches fun caches hMirrors => ?_⟩
  · cases caches.attributes.lookup? id with
    | some kept => rfl
    | none =>
        refine .bind (.run trivial) fun found => ?_
        cases found with
        | none => rfl
        | some row => exact fun _ => rfl
  · cases hGet : caches.attributes.lookup? id with
    | some kept =>
        have hFind : contents.attribute? id = some kept :=
          hKeyed.attributes.find?_eq_some_iff.2
            (hMirrors.attributes.lookup?_eq_some hGet)
        rw [hFind]
        exact ⟨caches, ends_done _, hMirrors⟩
    | none =>
        refine ComesTo.read rfl ?_ caches hMirrors
        cases hFind : contents.attribute? id with
        | none => exact .done _
        | some row =>
            have hRow :=
              (hKeyed.attributes.find?_eq_some_iff.1 hFind).1
            exact (comesTo_keepAttribute hKeyed hRow).map some

end Attributes

------------------------------------------------------------
-- Values
------------------------------------------------------------

namespace Values

theorem bound_findOrAdd
    (content : Scalar)
    (intent : Intent) :
    (findOrAdd content intent).BoundTo Statement.Leaves := by
  refine .bind (.run trivial) fun found => ?_
  cases found with
  | some row => exact fun _ => rfl
  | none =>
      cases intent with
      | lookup => rfl
      | create => exact .bind (.run trivial) fun _ _ => rfl

/- What a search for a value comes to. -/
abbrev Found
    (before : Contents)
    (content : Scalar)
    (intent : Intent)
    (after : Contents)
    (found : Option Int) : Prop :=
  before.Found (fun contents => contents.valueOf? content)
    Value.id (.value content.normalized) none intent after
    found

/- A value that is there is found, and may be created. -/
theorem comesTo_findOrAdd
    (hKeyed : contents.Keyed)
    (content : Scalar)
    (intent : Intent) :
    ∃ found after,
      (findOrAdd content intent).ComesTo clock contents
        (.ok found) after ∧
      Found contents content intent after found := by
  cases hFind : contents.valueOf? content with
  | some row =>
      rcases hKeyed.valueOf?_eq_some_iff.1 hFind with
        ⟨hRow, hContent⟩
      have hKeep : ⟨row.id, content.normalized⟩ ∈
          contents.values.rows := by
        rw [← hContent]
        exact hRow
      refine ⟨some row.id, contents, .read rfl ?_,
        .there hKeyed hFind⟩
      rw [hFind]
      exact (comesTo_keepValue hKeep).bind (.done _)
  | none =>
      cases intent with
      | lookup =>
          refine ⟨none, contents, .read rfl ?_,
            .absent hKeyed hFind⟩
          rw [hFind]
          exact .done _
      | create =>
          cases hAdd : contents.addValue content with
          | error error =>
              simp [Contents.addValue, hFind] at hAdd
          | ok added =>
              rcases added with ⟨id, after⟩
              have hAfter := hKeyed.addValue hAdd
              have hRow : ⟨id, content.normalized⟩ ∈
                  after.values.rows := by
                rcases Contents.addValue_eq_ok hAdd with
                  ⟨-, -, rfl⟩
                exact Contents.mem_push_iff.2 (Or.inr rfl)
              have hFound : Found contents content .create
                  after
                  (some (Value.id ⟨id, content.normalized⟩)) :=
                .added hAfter hFind
                  (Contents.adds_addValue hAdd).1
                  (hAfter.valueOf?_eq_some_iff.2
                    ⟨hRow, rfl⟩)
              refine ⟨some id, after, .read rfl ?_, hFound⟩
              rw [hFind]
              exact (ComesTo.run (.addValue content) hAdd
                (.ofGrows
                  (Contents.addValue_grows hAdd))).bind
                ((comesTo_keepValue hRow).bind (.done _))

/- A scalar that can be stored may get an identity. -/
theorem comesTo_resolve
    (hKeyed : contents.Keyed)
    (policy : Policy)
    {content : Scalar}
    (hCheck : Check.storable content = .ok ())
    (intent : Intent) :
    ∃ found after,
      (resolve policy content intent).ComesTo clock contents
        (.ok found) after ∧
      Found contents content intent after found := by
  rcases comesTo_findOrAdd hKeyed content intent with
    ⟨found, after, hAction, hFound⟩
  refine ⟨found, after, ComesTo.bind (.check hCheck)
    (comesTo_caches fun caches hMirrors => ?_), hFound⟩
  cases hGet : caches.values.get? content with
  | some id =>
      have hThere :
          contents.valueOf? content =
            some ⟨id, content.normalized⟩ :=
        hKeyed.valueOf?_eq_some_iff.2
          ⟨hMirrors.values.get?_eq_some hGet, rfl⟩
      have hSame := hFound.of_there hThere
      rw [hSame.1, hSame.2]
      exact ⟨caches, ends_done _, hMirrors⟩
  | none => exact hAction.attempts policy _ caches hMirrors

theorem sure_resolve
    (policy : Policy)
    (content : Scalar)
    (intent : Intent) :
    (resolve policy content intent).Sure
      Statement.Leaves := by
  refine sure_of_comesTo (.bind (.done _) fun _ =>
    .caches_bind fun caches => ?_)
    fun clock contents hKeyed => ?_
  · cases caches.values.get? content with
    | some kept => rfl
    | none =>
        exact .attempts policy _
          (bound_findOrAdd content intent)
  · cases hCheck : Check.storable content with
    | error error =>
        exact ⟨_, _, ComesTo.bind_error (.check hCheck)⟩
    | ok _ =>
        rcases comesTo_resolve hKeyed policy hCheck intent
          with ⟨found, after, hComes, -⟩
        exact ⟨_, _, hComes⟩

/-
  The scalar of an identity is the one that is stored, up to
  the sign of zero.
-/
theorem ends_byId
    (hKeyed : contents.Keyed)
    (id : Int)
    {caches : Caches}
    (hMirrors : caches.Mirrors contents) :
    ∃ found kept,
      (byId id).Ends clock (.ofContents contents) caches
        (.ok found) (.ofContents contents) kept ∧
      kept.Mirrors contents ∧
      found.map Scalar.normalized =
        (contents.value? id).map Value.content := by
  cases hGet : caches.values.lookup? id with
  | some content =>
      have hFind : contents.value? id =
          some ⟨id, content.normalized⟩ :=
        hKeyed.values.find?_eq_some_iff.2
          ⟨hMirrors.values.lookup?_eq_some hGet, rfl⟩
      refine ⟨some content, caches, ends_caches ?_, hMirrors,
        by simp [hFind]⟩
      simp only [hGet]
      exact ends_done _
  | none =>
      have hComes : (run (.valueById id) >>= fun found =>
          found.elim (pure none) fun row => do
            keepValue row.content id
            pure (some row.content)).ComesTo clock contents
              (.ok ((contents.value? id).map Value.content))
              contents := by
        refine .read rfl ?_
        cases hFind : contents.value? id with
        | none => exact .done _
        | some row =>
            rcases hKeyed.values.find?_eq_some_iff.1 hFind
              with ⟨hRow, rfl⟩
            have hKeep :
                ⟨row.id, row.content.normalized⟩ ∈
                  contents.values.rows := by
              rw [hKeyed.normalized row hRow]
              exact hRow
            exact (comesTo_keepValue hKeep).bind (.done _)
      rcases hComes caches hMirrors with ⟨kept, hEnds, hKept⟩
      refine ⟨(contents.value? id).map Value.content, kept,
        ends_caches ?_, hKept, ?_⟩
      · simp only [hGet]
        convert hEnds using 3 with found
        cases found <;> rfl
      · cases hFind : contents.value? id with
        | none => rfl
        | some row =>
            have hRow :=
              (hKeyed.values.find?_eq_some_iff.1 hFind).1
            simp [hKeyed.normalized row hRow]

theorem agrees_byId (id : Int) :
    (byId id).Agrees Statement.Leaves
      (fun found other => found.map Scalar.normalized =
        other.map Scalar.normalized) (byId id) := by
  have hBound : (byId id).BoundTo Statement.Leaves := by
    refine .caches_bind fun caches => ?_
    cases caches.values.lookup? id with
    | some kept => rfl
    | none =>
        refine .bind (.run trivial) fun found => ?_
        cases found with
        | none => rfl
        | some row => exact fun _ => rfl
  refine ⟨hBound, hBound, ?_⟩
  intro clock contents caches caches' hKeyed hMirrors
    hMirrors'
  rcases ends_byId hKeyed id hMirrors with
    ⟨found, kept, hEnds, hKept, hFound⟩
  rcases ends_byId hKeyed id hMirrors' with
    ⟨other, kept', hEnds', hKept', hOther⟩
  exact ⟨.ok found, .ok other, contents, kept, kept', hEnds,
    hEnds', hFound.trans hOther.symm, hKept, hKept'⟩

end Values

------------------------------------------------------------
-- Items
------------------------------------------------------------

namespace Items

/- What a search for an item comes to. -/
abbrev Found
    (before : Contents)
    (tableId valueId : Int)
    (intent : Intent)
    (after : Contents)
    (found : Option Int) : Prop :=
  before.Found
    (fun contents => contents.itemOf? tableId valueId)
    ItemRow.id (.item tableId valueId) none intent after found

/-
  An item that is there is found, and may be created if its
  table and its key are there.
-/
theorem comesTo_resolve
    (hKeyed : contents.Keyed)
    (policy : Policy)
    {tableId valueId : Int}
    {intent : Intent}
    (hMay : intent = .create →
      (contents.table? tableId).isSome ∧
        (contents.value? valueId).isSome) :
    ∃ found after,
      (resolve policy tableId valueId intent).ComesTo clock
        contents (.ok found) after ∧
      Found contents tableId valueId intent after found := by
  suffices hAction : ∃ found after,
      (findOrAdd tableId valueId intent).ComesTo clock
        contents (.ok found) after ∧
      Found contents tableId valueId intent after found by
    rcases hAction with ⟨found, after, hAction, hFound⟩
    exact ⟨found, after, hAction.attempts policy _, hFound⟩
  cases hFind : contents.itemOf? tableId valueId with
  | some row =>
      refine ⟨some row.id, contents, .read rfl ?_,
        .there hKeyed hFind⟩
      rw [hFind]
      exact .done _
  | none =>
      cases intent with
      | lookup =>
          refine ⟨none, contents, .read rfl ?_,
            .absent hKeyed hFind⟩
          rw [hFind]
          exact .done _
      | create =>
          cases hAdd : contents.addItem tableId valueId
            clock.cell with
          | error error =>
              rcases hMay rfl with ⟨hTable, hValue⟩
              rcases hKeyed.knows_of_addItem hTable hValue
                hAdd with ⟨-, hKnown⟩
              simp [hKeyed.knows_item_iff, hFind] at hKnown
          | ok added =>
              rcases added with ⟨id, after⟩
              have hAfter := hKeyed.addItem hAdd
              have hRow : ⟨id, tableId, valueId, clock.cell,
                  clock.cell⟩ ∈ after.items.rows := by
                rcases Contents.addItem_eq_ok hAdd with
                  ⟨-, -, rfl⟩
                exact Contents.mem_push_iff.2 (Or.inr rfl)
              have hFound : Found contents tableId valueId
                  .create after (some (ItemRow.id ⟨id,
                    tableId, valueId, clock.cell,
                      clock.cell⟩)) :=
                .added hAfter hFind
                  (Contents.adds_addItem hAdd).1
                  (hAfter.itemOf?_eq_some_iff.2
                    ⟨hRow, rfl, rfl⟩)
              refine ⟨some id, after, .read rfl ?_, hFound⟩
              rw [hFind]
              exact (ComesTo.run (.addItem tableId valueId)
                hAdd (.ofGrows
                  (Contents.addItem_grows hAdd))).map some

theorem sure_resolve
    (policy : Policy)
    (tableId valueId : Int)
    (intent : Intent) :
    (resolve policy tableId valueId intent).Sure
      Statement.Leaves := by
  refine .of_blind (blind_resolve policy tableId valueId
    intent) (.attempts policy _ (.bind (.run trivial)
      fun found => ?_)) fun _ hLeaves => hLeaves
  cases found with
  | some row => rfl
  | none =>
      cases intent with
      | lookup => rfl
      | create => exact .bind (.run trivial) fun _ => rfl

theorem sure_byId (id : Int) :
    (byId id).Sure Statement.Leaves := by
  refine Sure.bind (.run _ trivial trivial) fun found => ?_
  cases found with
  | none => exact .pure rfl
  | some row => exact Sure.map some (.done _)

theorem asks_applyChanges
    (id : Int)
    (changes : List SlotChange) :
    (applyChanges id changes).Asks Statement.Leaves
      (fun phase => phase = .inside) .inside := by
  induction changes with
  | nil => rfl
  | cons change rest ih =>
      refine .held_bind trivial (fun _ => ?_) rfl
      cases change.valueId with
      | none => exact ih
      | some valueId =>
          exact .held_bind trivial (fun _ => ih) rfl

theorem sure_setSlots
    (id : Int)
    (changes : List SlotChange) :
    (setSlots id changes).Sure Statement.Leaves := by
  refine .of_blind (blind_setSlots id changes)
    (.transaction ?_) fun _ hLeaves => hLeaves
  refine .held_bind trivial (fun touched => ?_) rfl
  by_cases hNone : touched = 0
  · simp only [hNone, ↓reduceIte]
    rfl
  · simp only [hNone, ↓reduceIte]
    exact asks_applyChanges id changes

theorem sure_remove (ids : List Int) :
    (remove ids).Sure Statement.Leaves := by
  refine .of_blind (blind_remove ids) (.transaction ?_)
    fun _ hLeaves => hLeaves
  induction ids with
  | nil => rfl
  | cons id rest ih =>
      refine .held_bind trivial (fun _ => ?_) rfl
      refine ih.bind ?_ fun _ hPhase => hPhase
      rintro _ _ rfl
      rfl

theorem sure_purge (tableId : Int) :
    (purge tableId).Sure Statement.Leaves :=
  Sure.bind (.run _ trivial trivial) fun _ =>
    Sure.bind (.run _ trivial trivial) fun _ =>
      Sure.bind (.run _ trivial trivial) fun _ => .pure rfl

theorem sure_reset : reset.Sure Statement.Leaves :=
  Sure.bind (.run _ trivial trivial) fun _ =>
    Sure.bind (.run _ trivial trivial) fun _ => .pure rfl

end Items

end SparseTables
