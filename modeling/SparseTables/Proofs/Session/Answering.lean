import SparseTables.Proofs.Session.Agreeing

/-
  This file shows that every call of a session answers alike
  whatever is mirrored by its caches, and bounds the
  statements that it makes.

  Only dropping a table and emptying the dictionaries remove
  rows of dictionaries.  Which of the two zeros an answer
  shows may depend on what is cached; nothing else does.

  Main declarations:
    * `Program.AgreesUpTo`
    * `Session.agrees_addSlots`
    * `Session.sure_define`
    * `Session.sure_dropTable`
    * `Session.sure_reset`
    * `Session.Call.May`
    * `Session.Call.Alike`
    * `Session.Call.agrees`
-/

namespace SparseTables

open Program

namespace Program

variable {α β γ δ : Type} {may : Statement → Prop}

/- Two programs agree on what is seen of their answers. -/
abbrev AgreesUpTo
    (may : Statement → Prop)
    (seen : α → γ)
    (left right : Program α) : Prop :=
  left.Agrees may
    (fun given other => seen given = seen other) right

namespace AgreesUpTo

variable {seen : α → γ} {left right : Program α}

theorem bind
    {alike : β → β → Prop}
    {next next' : α → Program β}
    (hFirst : left.AgreesUpTo may seen right)
    (hNext : ∀ given other, seen given = seen other →
      (next given).Agrees may alike (next' other)) :
    (left >>= next).Agrees may alike (right >>= next') :=
  Agrees.bind hFirst (fun _ => rfl) hNext

/- What must be there is there for both, or for none. -/
theorem required
    (what : String)
    {found other : Option α}
    (hSame : found.map seen = other.map seen) :
    (Program.required what found).AgreesUpTo may seen
      (Program.required what other) := by
  cases found <;> cases other <;> simp at hSame
  · exact (Agrees.done _).mono (fun _ hMay => hMay)
      fun _ _ hEq => congrArg seen hEq
  · exact .pure hSame

end AgreesUpTo

end Program

namespace Statement

/- Statements that empty no dictionary. -/
def Drops : Statement → Prop
  | removeTables | removeAttributes | removeValues => False
  | _ => True

theorem Leaves.drops
    {asked : Statement}
    (hLeaves : asked.Leaves) :
    asked.Drops := by
  cases asked <;> trivial

/- A value stays where no dictionary is emptied. -/
theorem Drops.keeps_value
    {asked : Statement}
    (hDrops : asked.Drops)
    {row : Value} :
    asked.Keeps fun contents =>
      row ∈ contents.values.rows := by
  intro clock before after hEffect hRow
  rcases hEffect.mem_values hRow with hKept | rfl
  · exact hKept
  · cases hDrops

end Statement

namespace Session

------------------------------------------------------------
-- Queries
------------------------------------------------------------

theorem sure_knownAmong
    (policies : Policies)
    (table : Table)
    (columns : List String) :
    (knownAmong policies table columns).Sure
      Statement.Leaves := by
  induction columns with
  | nil => exact .pure rfl
  | cons column rest ih =>
      rw [knownAmong]
      split
      · exact ih
      · exact (Attributes.sure_resolve _ _ _ _ _).bind
          fun _ => ih.bind fun _ => .pure rfl

theorem sure_compile
    (policies : Policies)
    (query : Select) :
    (compile policies query).Sure Statement.Leaves := by
  refine Sure.bind (.done _) fun _ => ?_
  refine (Tables.sure_resolve _ _ _ _).bind fun table => ?_
  cases table with
  | none => exact Sure.bind (.pure rfl) fun _ => .pure rfl
  | some row =>
      exact (sure_knownAmong policies row _).bind
        fun _ => .pure rfl

theorem sure_select
    (policies : Policies)
    (query : Select) :
    (select policies query).Sure Statement.Leaves :=
  (sure_compile policies query).bind fun compiled =>
    Sure.bind (.run (.select compiled.1 compiled.2)
      trivial trivial) fun _ => .pure rfl

theorem sure_scalar
    (policies : Policies)
    (query : Select) :
    (scalar policies query).Sure Statement.Leaves :=
  (sure_select policies query).bind fun _ => .pure rfl

theorem sure_integer
    (policies : Policies)
    (query : Select) :
    (integer policies query).Sure Statement.Leaves :=
  (sure_scalar policies query).bind fun _ => .done _

theorem sure_list
    (policies : Policies)
    (query : Select) :
    (list policies query).Sure Statement.Leaves :=
  (sure_select policies query).bind fun _ => .pure rfl

theorem sure_pairs
    (policies : Policies)
    (query : Select) :
    (pairs policies query).Sure Statement.Leaves := by
  refine (sure_select policies query).bind fun found => ?_
  dsimp only
  split
  · exact .done _
  · exact .pure rfl

theorem sure_rowId
    (policies : Policies)
    (table : String)
    (key : Scalar) :
    (rowId policies table key).Sure Statement.Leaves :=
  Sure.bind (.done _) fun _ => sure_integer policies _

theorem sure_rowValue
    (policies : Policies)
    (table : String)
    (id : Int) :
    (rowValue policies table id).Sure Statement.Leaves :=
  Sure.bind (.done _) fun _ => sure_scalar policies _

------------------------------------------------------------
-- Reading items
------------------------------------------------------------

theorem agrees_addSlots
    {metadata other : Metadata}
    (hSame : metadata.normalized = other.normalized)
    (slots : List Slot) :
    (addSlots metadata slots).AgreesUpTo Statement.Leaves
      NameMap.normalized (addSlots other slots) := by
  induction slots generalizing metadata other with
  | nil => exact .pure hSame
  | cons slot rest ih =>
      refine Agrees.bind (Attributes.sure_byId _)
        (fun _ => rfl) ?_
      rintro found _ rfl
      refine Agrees.bind (Sure.required _ found)
        (fun _ => rfl) ?_
      rintro row _ rfl
      refine AgreesUpTo.bind (Values.agrees_byId _) ?_
      intro content content' hContent
      refine AgreesUpTo.bind (.required _ hContent) ?_
      intro scalar scalar' hScalar
      apply ih
      simp only [NameMap.normalized, NameMap.map_insert,
        hScalar]
      exact congrArg (fun map =>
        NameMap.insert map row.name scalar'.normalized) hSame

theorem agrees_metadataOf (itemId : Int) :
    (metadataOf itemId).AgreesUpTo Statement.Leaves
      NameMap.normalized (metadataOf itemId) :=
  Sure.bind (.run (.slotsOf itemId) trivial trivial)
    fun slots => agrees_addSlots rfl slots

theorem sure_itemUnder
    (policies : Policies)
    (table : Table)
    (key : Scalar) :
    (itemUnder policies table key).Sure
      Statement.Leaves := by
  refine (Values.sure_resolve _ _ _).bind fun found => ?_
  cases found with
  | none => exact .pure rfl
  | some valueId => exact Items.sure_resolve _ _ _ _

theorem agrees_getEach
    (policies : Policies)
    (table : Table)
    (keys : List Scalar) :
    (getEach policies table keys).AgreesUpTo Statement.Leaves
      (List.map (Option.map NameMap.normalized))
      (getEach policies table keys) := by
  induction keys with
  | nil => exact .pure rfl
  | cons key rest ih =>
      refine (sure_itemUnder policies table key).bind
        fun found => ?_
      have hMore {first other : Option Metadata}
          (hSame : first.map NameMap.normalized =
            other.map NameMap.normalized) :
          (do
            let more ← getEach policies table rest
            pure (first :: more) :
              Program (List (Option Metadata))).AgreesUpTo
            Statement.Leaves
            (List.map (Option.map NameMap.normalized))
            (do
              let more ← getEach policies table rest
              pure (other :: more)) :=
        AgreesUpTo.bind ih fun _ _ hRest => .pure (by
          simp only [List.map_cons, hSame, hRest])
      cases found with
      | none => exact hMore rfl
      | some itemId =>
          have hMetadata : (some <$>
              metadataOf itemId).AgreesUpTo Statement.Leaves
                (Option.map NameMap.normalized)
                (some <$> metadataOf itemId) :=
            (agrees_metadataOf itemId).bind
              fun _ _ hSame => .pure (congrArg some hSame)
          exact hMetadata.bind fun _ _ hSame => hMore hSame

theorem agrees_get
    (policies : Policies)
    (request : GetRequest) :
    (get policies request).AgreesUpTo Statement.Leaves
      GetResponse.normalized (get policies request) :=
  (Tables.sure_resolve _ _ _ _).bind fun _ =>
    (Sure.required _ _).bind fun table =>
      (agrees_getEach policies table _).bind
        fun _ _ hSame => .pure
        (congrArg GetResponse.mk hSame)

theorem agrees_getRows
    (rows : List (List (Option Scalar))) :
    (getRows rows).AgreesUpTo Statement.Leaves
      (List.map (Option.map NameMap.normalized))
      (getRows rows) := by
  induction rows using getRows.induct with
  | case1 => exact .pure rfl
  | case2 id key more rest ih =>
      refine AgreesUpTo.bind (agrees_metadataOf _)
        fun metadata other hSame => ?_
      refine AgreesUpTo.bind ih fun more more' hMore => ?_
      have hWhole :
          ((metadata.insert "id" (.number id)).insert "value"
            key).normalized =
          ((other.insert "id" (.number id)).insert "value"
            key).normalized := by
        simp only [NameMap.normalized, NameMap.map_insert]
        exact congrArg (fun map : Metadata =>
          (map.insert "id" (Scalar.normalized
            (.number id))).insert "value" key.normalized) hSame
      exact .pure (by
        simp only [List.map_cons, Option.map_some, hWhole,
          hMore])
  | case3 row rest hNot ih =>
      rw [getRows]
      · exact ih
      · exact hNot

theorem agrees_queryGet
    (policies : Policies)
    (query : Select) :
    (queryGet policies query).AgreesUpTo Statement.Leaves
      GetResponse.normalized (queryGet policies query) :=
  (sure_select policies _).bind fun _ =>
    (agrees_getRows _).bind fun _ _ hSame =>
      .pure
        (congrArg GetResponse.mk hSame)

/- The line that a summary shows. -/
def summaryLine
    (name : String)
    (key : Scalar)
    (metadata : Metadata) : String :=
  name ++ "[" ++ key.display ++ "] \x7b" ++
    ", ".intercalate (metadata.entries.map showEntry) ++
      "\x7d"

/-
  Lines that show the same table, key and attributes, but for
  the signs of zeros.
-/
def SameSummary (line other : String) : Prop :=
  ∃ name key key' metadata metadata',
    Scalar.normalized key = Scalar.normalized key' ∧
      NameMap.normalized metadata =
        NameMap.normalized metadata' ∧
      line = summaryLine name key metadata ∧
      other = summaryLine name key' metadata'

theorem agrees_summarize (itemId : Int) :
    (summarize itemId).Agrees Statement.Leaves SameSummary
      (summarize itemId) := by
  refine (Items.sure_byId _).bind fun _ =>
    (Sure.required _ _).bind fun item => ?_
  refine (Tables.sure_byId _).bind fun _ =>
    (Sure.required _ _).bind fun table => ?_
  refine AgreesUpTo.bind (Values.agrees_byId _)
    fun _ _ hKeys => AgreesUpTo.bind (.required _ hKeys)
      fun key key' hKey => ?_
  refine AgreesUpTo.bind (agrees_metadataOf _)
    fun metadata metadata' hSame => ?_
  have hAlike : SameSummary
      (summaryLine table.name key metadata)
      (summaryLine table.name key' metadata') :=
    ⟨_, _, _, _, _, hKey, hSame, rfl, rfl⟩
  exact ⟨rfl, rfl, fun _ contents caches caches' _ hMirrors
    hMirrors' => ⟨_, _, contents, caches, caches',
      ends_done _, ends_done _, hAlike, hMirrors, hMirrors'⟩⟩

theorem sure_schema (table : Option String) :
    (schema table).Sure Statement.Leaves :=
  Sure.bind (.run (.schema table) trivial trivial)
    fun _ => .pure rfl

------------------------------------------------------------
-- Writing items
------------------------------------------------------------

theorem sure_changeOf
    (policies : Policies)
    (tableId : Int)
    (name : String)
    (content : Option Scalar) :
    (changeOf policies tableId name content).Sure
      Statement.Leaves := by
  cases content with
  | none =>
      exact (Attributes.sure_resolve _ _ _ _ _).bind
        fun _ => .pure rfl
  | some content =>
      refine Sure.bind (.done _) fun _ =>
        (Attributes.sure_resolve _ _ _ _ _).bind fun _ => ?_
      refine (Sure.required _ _).bind fun row =>
        Sure.bind (.done _) fun _ => ?_
      exact (Values.sure_resolve _ _ _).bind fun _ =>
        (Sure.required _ _).bind fun _ => .pure rfl

theorem sure_changesOf
    (policies : Policies)
    (tableId : Int)
    (entries : List (String × Option Scalar)) :
    (changesOf policies tableId entries).Sure
      Statement.Leaves := by
  induction entries with
  | nil => exact .pure rfl
  | cons entry rest ih =>
      exact (sure_changeOf policies tableId _ _).bind
        fun _ => ih.bind fun _ => .pure rfl

theorem sure_define
    (policies : Policies)
    (request : Define) :
    (define policies request).Sure Statement.Leaves := by
  refine Sure.bind (.done _) fun _ =>
    (Tables.sure_resolve _ _ _ _).bind fun _ => ?_
  refine (Sure.required _ _).bind fun table =>
    Sure.bind (.done _) fun _ => ?_
  refine (Values.sure_resolve _ _ _).bind fun _ =>
    (Sure.required _ _).bind fun keyId => ?_
  refine (Items.sure_resolve _ _ _ _).bind fun _ =>
    (Sure.required _ _).bind fun itemId => ?_
  exact (sure_changesOf policies _ _).bind fun changes =>
    (Items.sure_setSlots itemId changes).bind
      fun _ => .pure rfl

theorem sure_createTable
    (policies : Policies)
    (name : String)
    (numeric : Bool) :
    (createTable policies name numeric).Sure
      Statement.Leaves :=
  (Tables.sure_resolve _ _ _ _).bind fun _ =>
    (Sure.required _ _).bind fun _ => .pure rfl

theorem sure_itemsUnder
    (policies : Policies)
    (table : Table)
    (keys : List Scalar) :
    (itemsUnder policies table keys).Sure
      Statement.Leaves := by
  induction keys with
  | nil => exact .pure rfl
  | cons key rest ih =>
      exact (sure_itemUnder policies table key).bind
        fun _ => ih.bind fun _ => .pure rfl

theorem sure_delete
    (policies : Policies)
    (name : String)
    (keys : List Scalar) :
    (delete policies name keys).Sure Statement.Leaves := by
  refine (Tables.sure_resolve _ _ _ _).bind fun found => ?_
  cases found with
  | none => exact .pure rfl
  | some table =>
      exact (sure_itemsUnder policies table keys).bind
        fun doomed => (Items.sure_remove doomed).bind
          fun _ => .pure rfl

------------------------------------------------------------
-- Removing from dictionaries
------------------------------------------------------------

theorem bound_drop (tableId : Int) :
    (do
      Attributes.purge tableId
      Items.purge tableId
      Tables.remove tableId : Program Unit).BoundTo
        Statement.Drops := by
  refine .bind ?_ fun _ => .bind ?_ fun _ => ?_
  · exact .bind (.run trivial) fun _ =>
      .bind (.run trivial) fun _ => rfl
  · exact .bind (.run trivial) fun _ =>
      .bind (.run trivial) fun _ =>
        .bind (.run trivial) fun _ => rfl
  · exact .bind (.run trivial) fun _ => rfl

theorem sure_dropTable
    (policies : Policies)
    (name : String) :
    (dropTable policies name).Sure Statement.Drops := by
  refine Sure.clearCaches_bind (Sure.bind ((Tables.sure_resolve
    policies.rows name .lookup false).mono
      (fun _ hLeaves => hLeaves.drops) fun _ _ hSame => hSame)
    fun found => ?_)
  cases found with
  | none => exact .pure rfl
  | some table =>
      exact Sure.clearing (blind_drop table.id)
        (bound_drop table.id)

theorem bound_wipes
    {may : Statement → Prop}
    {dictionaries : Bool}
    (hLeaves : ∀ asked, asked.Leaves → may asked)
    (hAll : dictionaries → ∀ asked, may asked) :
    (do
      Items.reset
      if dictionaries then
        Values.reset
        Attributes.reset
        Tables.reset : Program Unit).BoundTo may := by
  refine .bind ?_ fun _ => ?_
  · exact .bind (.run (hLeaves _ trivial)) fun _ =>
      .bind (.run (hLeaves _ trivial)) fun _ => rfl
  cases dictionaries with
  | false => rfl
  | true =>
      have hMay := hAll rfl
      exact .bind (.bind (.run (hMay _)) fun _ => rfl)
        fun _ => .bind (.bind (.run (hMay _)) fun _ => rfl)
          fun _ => .bind (.run (hMay _)) fun _ => rfl

theorem sure_reset
    {may : Statement → Prop}
    {dictionaries : Bool}
    (hLeaves : ∀ asked, asked.Leaves → may asked)
    (hAll : dictionaries → ∀ asked, may asked) :
    (reset dictionaries).Sure may :=
  Sure.clearing (blind_wipes dictionaries)
    (bound_wipes hLeaves hAll)

------------------------------------------------------------
-- Calls
------------------------------------------------------------

namespace Call

/- The statements that a call may make. -/
def May : Call → Statement → Prop
  | dropTable _ => Statement.Drops
  | reset true => fun _ => True
  | _ => Statement.Leaves

/-
  When two answers of a call are alike: they are the same,
  but for the signs of zeros in attributes and summaries.
-/
def Alike : (call : Call) →
    call.Answer → call.Answer → Prop
  | get _, given, other | queryGet _, given, other =>
      given.normalized = other.normalized
  | summarize _, given, other => SameSummary given other
  | define _, given, other | createTable _ _, given, other
  | delete _ _, given, other | dropTable _, given, other
  | reset _, given, other | item _, given, other
  | schema _, given, other | compile _, given, other
  | select _, given, other | scalar _, given, other
  | integer _, given, other | list _, given, other
  | pairs _, given, other | rowId _ _, given, other
  | rowValue _ _, given, other => given = other

/- Every call answers alike whatever the caches mirror. -/
theorem agrees
    (policies : Policies)
    (call : Call) :
    (call.program policies).Agrees call.May call.Alike
      (call.program policies) := by
  cases call with
  | define request => exact sure_define policies request
  | createTable name numeric =>
      exact sure_createTable policies name numeric
  | delete name keys => exact sure_delete policies name keys
  | dropTable name => exact sure_dropTable policies name
  | reset dictionaries =>
      cases dictionaries with
      | false => exact sure_reset (fun _ h => h) (by simp)
      | true =>
          exact sure_reset (fun _ _ => trivial)
            fun _ _ => trivial
  | get request => exact agrees_get policies request
  | queryGet query => exact agrees_queryGet policies query
  | item id => exact Items.sure_byId id
  | summarize id => exact agrees_summarize id
  | schema table => exact sure_schema table
  | compile query => exact sure_compile policies query
  | select query => exact sure_select policies query
  | scalar query => exact sure_scalar policies query
  | integer query => exact sure_integer policies query
  | list query => exact sure_list policies query
  | pairs query => exact sure_pairs policies query
  | rowId table key => exact sure_rowId policies table key
  | rowValue table id => exact sure_rowValue policies table id

end Call

end Session

end SparseTables
