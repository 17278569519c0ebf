import SparseTables.Proofs.Program.Leading
import SparseTables.Session.Attributes
import SparseTables.Session.Items
import SparseTables.Session.Values

/-
  This file shows what the calls on dictionaries and items
  give that create what is missing, while others use the
  store as well and nothing is removed from it.

  If a name may be used and no call of the store fails, the
  row under the key is given, no matter who has created it.

  Main declarations:
    * `Tables.leads_resolve`
    * `Attributes.leads_resolve`
    * `Attributes.leads_lookup`
    * `Values.leads_resolve`
    * `Items.leads_resolve`
-/

namespace SparseTables

open Program

variable {concord : Concord} {pledge : Pledge}
variable {seen : Contents} {policy : Policy}

------------------------------------------------------------
-- Tables
------------------------------------------------------------

namespace Tables

/- The table of a name is given. -/
def Given
    (name : String)
    (given : Option Table)
    (now : Contents) : Prop :=
  ∃ row ∈ now.tables.rows, given = some row ∧ row.name = name

theorem leads_keep
    {row : Table}
    (hRow : row ∈ seen.tables.rows) :
    (some <$> keepTable row).Leads concord pledge
      (Gets concord (Given row.name)) seen := by
  refine Leads.map_gets (leads_keepTable hRow) ?_
  intro given now hWidens hSame
  exact ⟨row, hWidens.retains.tables row hRow,
    congrArg some hSame, rfl⟩

/- A table that is known is found. -/
theorem leads_found
    {name : String}
    (hKnown : seen.Knows (.table name))
    (intent : Intent)
    (numeric : Bool) :
    (findOrAdd name intent numeric).Leads concord pledge
      (Gets concord (Given name)) seen := by
  refine leads_read_bind (.tableNamed name) (fun _ _ => rfl)
    (fun hMay _ _ => hMay) fun now hWidens hSuch => ?_
  have hKeyed := concord.keyed hSuch
  rcases hKeyed.knows_table_iff.1 (hWidens.knows hKnown) with
    ⟨row, hFound⟩
  rcases hKeyed.tableNamed?_eq_some_iff.1 hFound with
    ⟨hRow, rfl⟩
  rw [hFound]
  exact leads_keep hRow

/- An attempt finds or creates a table, or it was too late. -/
theorem leads_attempt
    {name : String}
    {numeric : Bool}
    (hPermits : Permits concord pledge seen
      (.addTable name numeric)) :
    (findOrAdd name .create numeric).Leads concord pledge
      (GetsOrLoses concord (.table name) (Given name))
      seen := by
  refine leads_read_bind (.tableNamed name) (fun _ _ => rfl)
    (fun hMay _ _ => Or.inl hMay) fun now hWidens hSuch => ?_
  cases hFound : now.tableNamed? name with
  | some row =>
      rcases (concord.keyed hSuch).tableNamed?_eq_some_iff.1
        hFound with ⟨hRow, rfl⟩
      exact (leads_keep hRow).mono
        fun _ _ _ hGets => Or.inl hGets
  | none =>
      refine leads_add_bind (hPermits.later hWidens)
        (fun id now =>
          ⟨id, name, numeric⟩ ∈ now.tables.rows)
        (fun hAdd => ?_)
        (fun _ hSuch hError =>
          (concord.keyed hSuch).knows_of_addTable hError)
        fun id last _ hRow => leads_keep hRow
      rw [(Contents.addTable_eq_ok hAdd).2.2]
      exact Contents.mem_push_iff.2 (Or.inr rfl)

theorem leads_resolve
    (hTwice : 2 ≤ policy.attempts)
    (hSuch : concord.such seen)
    {name : String}
    {numeric : Bool}
    (hPermits : Permits concord pledge seen
      (.addTable name numeric)) :
    (resolve policy name .create numeric).Leads concord pledge
      (Passes concord (Check.dictionary "Table" name)
        (Given name)) seen := by
  refine leads_check_bind hSuch fun _ => ?_
  refine leads_caches_bind
    fun now caches hWidens hSuch hMirrors => ?_
  cases hGet : caches.tables.get? name with
  | some kept =>
      rcases hMirrors.tables.get?_eq_some hGet with
        ⟨hRow, hName⟩
      exact leads_done hSuch ⟨kept, hRow, rfl, hName⟩
  | none =>
      exact leads_attempts hTwice _
        (fun _ hMore => leads_attempt
          (hPermits.later (hWidens.trans hMore)))
        fun _ _ hKnown => leads_found hKnown _ _

end Tables

------------------------------------------------------------
-- Attributes
------------------------------------------------------------

namespace Attributes

variable {tableId : Int} {name : String} {numeric : Bool}

/- The attribute of a name is given. -/
def Given
    (tableId : Int)
    (name : String)
    (given : Option Attribute)
    (now : Contents) : Prop :=
  ∃ row ∈ now.attributes.rows, given = some row ∧
    row.tableId = tableId ∧ row.name = name

theorem leads_keep
    {row : Attribute}
    (hRow : row ∈ seen.attributes.rows) :
    (some <$> keepAttribute row).Leads concord pledge
      (Gets concord (Given row.tableId row.name)) seen := by
  refine Leads.map_gets (leads_keepAttribute hRow) ?_
  intro given now hWidens hSame
  exact ⟨row, hWidens.retains.attributes row hRow,
    congrArg some hSame, rfl, rfl⟩

/- An attribute that is known is found. -/
theorem leads_found
    (hKnown : seen.Knows (.column tableId name))
    (intent : Intent)
    (numeric : Bool) :
    (findOrAdd tableId name intent numeric).Leads concord
      pledge (Gets concord (Given tableId name)) seen := by
  refine leads_read_bind (.attributeNamed tableId name)
    (fun _ _ => rfl) (fun hMay _ _ => hMay)
    fun now hWidens hSuch => ?_
  have hKeyed := concord.keyed hSuch
  rcases hKeyed.knows_column_iff.1 (hWidens.knows hKnown) with
    ⟨row, hFound⟩
  rcases hKeyed.attributeNamed?_eq_some_iff.1 hFound with
    ⟨hRow, rfl, rfl⟩
  rw [hFound]
  exact leads_keep hRow

/- An attempt finds or creates one, or it was too late. -/
theorem leads_attempt
    (hTable : (seen.table? tableId).isSome)
    (hPermits : Permits concord pledge seen
      (.addAttribute tableId name numeric)) :
    (findOrAdd tableId name .create numeric).Leads concord
      pledge
      (GetsOrLoses concord (.column tableId name)
        (Given tableId name)) seen := by
  refine leads_read_bind (.attributeNamed tableId name)
    (fun _ _ => rfl) (fun hMay _ _ => Or.inl hMay)
    fun now hWidens hSuch => ?_
  cases hFound : now.attributeNamed? tableId name with
  | some row =>
      rcases (concord.keyed
        hSuch).attributeNamed?_eq_some_iff.1 hFound with
        ⟨hRow, rfl, rfl⟩
      exact (leads_keep hRow).mono
        fun _ _ _ hGets => Or.inl hGets
  | none =>
      refine leads_add_bind (hPermits.later hWidens)
        (fun id now =>
          ⟨id, tableId, name, numeric⟩ ∈ now.attributes.rows)
        (fun hAdd => ?_)
        (fun hMore hSuch hError => ?_)
        fun id last _ hRow => leads_keep hRow
      · rw [(Contents.addAttribute_eq_ok hAdd).2.2.2]
        exact Contents.mem_push_iff.2 (Or.inr rfl)
      · have hThere := hWidens.trans hMore
        exact (concord.keyed hSuch).knows_of_addAttribute
          (hThere.isSome_table? hTable) hError

/- An attribute that is cached need not be looked up. -/
theorem leads_cached
    (hSuch : concord.such seen)
    {intent : Intent}
    (hMissing : ∀ now, seen.Widens now →
      (policy.run "Names.get_id"
        (findOrAdd tableId name intent numeric)).Leads concord
          pledge (Gets concord (Given tableId name)) now) :
    (resolve policy tableId name intent numeric).Leads concord
      pledge
      (Passes concord (Check.dictionary "Column" name)
        (Given tableId name)) seen := by
  refine leads_check_bind hSuch fun _ => ?_
  refine leads_caches_bind
    fun now caches hWidens hSuch hMirrors => ?_
  cases hGet : caches.attributes.get? (tableId, name) with
  | some kept =>
      rcases hMirrors.attributes.get?_eq_some hGet with
        ⟨hRow, hKey⟩
      exact leads_done hSuch ⟨kept, hRow, rfl,
        Prod.ext_iff.1 hKey⟩
  | none => exact hMissing now hWidens

theorem leads_resolve
    (hTwice : 2 ≤ policy.attempts)
    (hSuch : concord.such seen)
    (hTable : (seen.table? tableId).isSome)
    (hPermits : Permits concord pledge seen
      (.addAttribute tableId name numeric)) :
    (resolve policy tableId name .create numeric).Leads
      concord pledge
      (Passes concord (Check.dictionary "Column" name)
        (Given tableId name)) seen :=
  leads_cached hSuch fun _ hWidens =>
    leads_attempts hTwice _
      (fun _ hMore => leads_attempt
        ((hWidens.trans hMore).isSome_table? hTable)
        (hPermits.later (hWidens.trans hMore)))
      fun _ _ hKnown => leads_found hKnown _ _

/- An attribute that is known need not be created. -/
theorem leads_lookup
    (policy : Policy)
    (hSuch : concord.such seen)
    (hKnown : seen.Knows (.column tableId name)) :
    (resolve policy tableId name .lookup numeric).Leads
      concord pledge
      (Passes concord (Check.dictionary "Column" name)
        (Given tableId name)) seen :=
  leads_cached hSuch fun _ hWidens =>
    leads_runFrom _ _ _ fun _ hMore =>
      leads_found ((hWidens.trans hMore).knows hKnown) _ _

end Attributes

------------------------------------------------------------
-- Values
------------------------------------------------------------

namespace Values

variable {content : Scalar}

/- The identity of a scalar is given. -/
def Given
    (content : Scalar)
    (given : Option Int)
    (now : Contents) : Prop :=
  ∃ id, given = some id ∧
    ⟨id, content.normalized⟩ ∈ now.values.rows

theorem leads_keep
    {id : Int}
    (hRow : ⟨id, content.normalized⟩ ∈ seen.values.rows) :
    (keepValue content id >>= fun _ => pure (some id)).Leads
      concord pledge (Gets concord (Given content)) seen :=
  (leads_keepValue hRow).bind_gets
    (fun _ _ hWidens hSuch _ =>
      leads_done hSuch ⟨id, rfl,
        hWidens.retains.values _ hRow⟩)
    fun hMay _ _ => hMay

/- A value that is known is found. -/
theorem leads_found
    (hKnown : seen.Knows (.value content.normalized))
    (intent : Intent) :
    (findOrAdd content intent).Leads concord pledge
      (Gets concord (Given content)) seen := by
  refine leads_read_bind (.valueOf content) (fun _ _ => rfl)
    (fun hMay _ _ => hMay) fun now hWidens hSuch => ?_
  have hKeyed := concord.keyed hSuch
  rcases hKeyed.knows_value_iff.1 (hWidens.knows hKnown) with
    ⟨row, hFound⟩
  rcases hKeyed.valueOf?_eq_some_iff.1 hFound with
    ⟨hRow, hSame⟩
  rw [hFound]
  exact leads_keep (hSame ▸ hRow)

/- An attempt finds or creates one, or it was too late. -/
theorem leads_attempt
    (hPermits : Permits concord pledge seen
      (.addValue content)) :
    (findOrAdd content .create).Leads concord pledge
      (GetsOrLoses concord (.value content.normalized)
        (Given content)) seen := by
  refine leads_read_bind (.valueOf content) (fun _ _ => rfl)
    (fun hMay _ _ => Or.inl hMay) fun now hWidens hSuch => ?_
  cases hFound : now.valueOf? content with
  | some row =>
      rcases (concord.keyed hSuch).valueOf?_eq_some_iff.1
        hFound with ⟨hRow, hSame⟩
      exact (leads_keep (hSame ▸ hRow)).mono
        fun _ _ _ hGets => Or.inl hGets
  | none =>
      refine leads_add_bind (hPermits.later hWidens)
        (fun id now =>
          ⟨id, content.normalized⟩ ∈ now.values.rows)
        (fun hAdd => ?_)
        (fun _ hSuch hError =>
          (concord.keyed hSuch).knows_of_addValue hError)
        fun id last _ hRow => leads_keep hRow
      rw [(Contents.addValue_eq_ok hAdd).2.2]
      exact Contents.mem_push_iff.2 (Or.inr rfl)

theorem leads_resolve
    (hTwice : 2 ≤ policy.attempts)
    (hSuch : concord.such seen)
    (hPermits : content.isStorable →
      Permits concord pledge seen (.addValue content)) :
    (resolve policy content .create).Leads concord pledge
      (Passes concord (Check.storable content)
        (Given content)) seen := by
  refine leads_check_bind hSuch fun hCheck => ?_
  have hPermits := hPermits (isStorable_of_check hCheck)
  refine leads_caches_bind
    fun now caches hWidens hSuch hMirrors => ?_
  cases hGet : caches.values.get? content with
  | some kept =>
      exact leads_done hSuch ⟨kept, rfl,
        hMirrors.values.get?_eq_some hGet⟩
  | none =>
      exact leads_attempts hTwice _
        (fun _ hMore => leads_attempt
          (hPermits.later (hWidens.trans hMore)))
        fun _ _ hKnown => leads_found hKnown _

end Values

------------------------------------------------------------
-- Items
------------------------------------------------------------

namespace Items

variable {tableId valueId : Int}

/- The identity of the item under a key is given. -/
def Given
    (tableId valueId : Int)
    (given : Option Int)
    (now : Contents) : Prop :=
  ∃ row ∈ now.items.rows, given = some row.id ∧
    row.tableId = tableId ∧ row.valueId = valueId

/- An item that is known is found. -/
theorem leads_found
    (hKnown : seen.Knows (.item tableId valueId))
    (intent : Intent) :
    (findOrAdd tableId valueId intent).Leads concord pledge
      (Gets concord (Given tableId valueId)) seen := by
  refine leads_read_bind (.itemOf tableId valueId)
    (fun _ _ => rfl) (fun hMay _ _ => hMay)
    fun now hWidens hSuch => ?_
  have hKeyed := concord.keyed hSuch
  rcases hKeyed.knows_item_iff.1 (hWidens.knows hKnown) with
    ⟨row, hFound⟩
  rcases hKeyed.itemOf?_eq_some_iff.1 hFound with
    ⟨hRow, hKey⟩
  rw [hFound]
  exact leads_done hSuch ⟨row, hRow, rfl, hKey⟩

/- An attempt finds or creates one, or it was too late. -/
theorem leads_attempt
    (hTable : (seen.table? tableId).isSome)
    (hValue : (seen.value? valueId).isSome)
    (hPermits : Permits concord pledge seen
      (.addItem tableId valueId)) :
    (findOrAdd tableId valueId .create).Leads concord pledge
      (GetsOrLoses concord (.item tableId valueId)
        (Given tableId valueId)) seen := by
  refine leads_read_bind (.itemOf tableId valueId)
    (fun _ _ => rfl) (fun hMay _ _ => Or.inl hMay)
    fun now hWidens hSuch => ?_
  cases hFound : now.itemOf? tableId valueId with
  | some row =>
      rcases (concord.keyed hSuch).itemOf?_eq_some_iff.1
        hFound with ⟨hRow, hKey⟩
      exact leads_done hSuch (Or.inl ⟨row, hRow, rfl, hKey⟩)
  | none =>
      refine leads_add_bind (hPermits.later hWidens)
        (fun id now => ∃ row ∈ now.items.rows,
          row.id = id ∧ row.tableId = tableId ∧
            row.valueId = valueId)
        (fun hAdd => ?_)
        (fun hMore hSuch hError => ?_)
        fun id last hSuch hMade => ?_
      · rw [(Contents.addItem_eq_ok hAdd).2.2]
        exact ⟨_, Contents.mem_push_iff.2 (Or.inr rfl), rfl,
          rfl, rfl⟩
      · have hThere := hWidens.trans hMore
        exact (concord.keyed hSuch).knows_of_addItem
          (hThere.isSome_table? hTable)
          (hThere.isSome_value? hValue) hError
      · rcases hMade with ⟨row, hRow, rfl, hKey⟩
        exact leads_done hSuch ⟨row, hRow, rfl, hKey⟩

theorem leads_resolve
    (hTwice : 2 ≤ policy.attempts)
    (hTable : (seen.table? tableId).isSome)
    (hValue : (seen.value? valueId).isSome)
    (hPermits : Permits concord pledge seen
      (.addItem tableId valueId)) :
    (resolve policy tableId valueId .create).Leads concord
      pledge (Gets concord (Given tableId valueId)) seen :=
  leads_attempts hTwice _
    (fun _ hMore => leads_attempt
      (hMore.isSome_table? hTable)
      (hMore.isSome_value? hValue) (hPermits.later hMore))
    fun _ _ hKnown => leads_found hKnown _

end Items

end SparseTables
