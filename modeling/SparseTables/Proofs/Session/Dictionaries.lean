import SparseTables.Proofs.Program.Rules
import SparseTables.Proofs.Session.Mirrors
import SparseTables.Session.Attributes
import SparseTables.Session.Values

/-
  This file shows what the calls on the dictionaries do: a
  row that is there is found, and one that is to be created
  is added to the store, once.

  A search that is allowed to try again may add its row in an
  attempt whose answer is lost.  A later attempt finds it.

  Main declarations:
    * `Contents.Sought`
    * `Program.Finds`
    * `Program.ensures_attempts`
    * `Program.ensures_added`
    * `Program.Ensures.created`
    * `Program.Reads`
    * `Program.ensures_reads_both`
    * `Tables.ensures_resolve`
    * `Attributes.ensures_resolve`
    * `Values.ensures_resolve`
    * `Tables.ensures_byId`
    * `Attributes.ensures_byId`
    * `Values.ensures_byId`
-/

namespace SparseTables

------------------------------------------------------------
-- Searches
------------------------------------------------------------

namespace Contents

variable {ρ : Type}

/-
  The contents while a row is sought: nothing was added if it
  was there or may not be created, and what is found although
  it was not there is fresh.
-/
structure Sought
    (find : Contents → Option ρ)
    (intent : Intent)
    (fresh : ρ → Prop)
    (start contents : Contents) : Prop where
  grows : start.Grows contents
  same : intent = .lookup ∨ (find start).isSome →
    contents = start
  isFresh : find start = none →
    ∀ row, find contents = some row → fresh row

namespace Sought

variable {find : Contents → Option ρ} {intent : Intent}
variable {fresh : ρ → Prop} {start contents : Contents}

theorem refl (start : Contents) :
    start.Sought find intent fresh start :=
  ⟨.refl _, fun _ => rfl, fun hNone _ hSome => by
    rw [hNone] at hSome
    cases hSome⟩

/- A row that is not found was not there. -/
theorem none_start
    (hSought : start.Sought find intent fresh contents)
    (hNone : find contents = none) :
    find start = none := by
  cases hStart : find start with
  | none => rfl
  | some row =>
      have hSame := hSought.same (Or.inr (by simp [hStart]))
      rw [hSame, hStart] at hNone
      cases hNone

/- A row that is not found may be added. -/
theorem add
    (hSought : start.Sought find .create fresh contents)
    (hNone : find contents = none)
    {after : Contents}
    (hGrows : contents.Grows after)
    {row : ρ}
    (hFind : find after = some row)
    (hFresh : fresh row) :
    start.Sought find .create fresh after := by
  have hStart := hSought.none_start hNone
  refine ⟨hSought.grows.trans hGrows, ?_, ?_⟩
  · simp [hStart]
  · intro _ other hOther
    rw [hFind] at hOther
    cases hOther
    exact hFresh

end Sought

end Contents

namespace Program

variable {ρ α : Type} {setup : Setup}

/-
  What a search ends with: the row that is in the contents
  then, or none if it may not be created.  It fails only if a
  check refuses it or a call of the store goes wrong.
-/
def Finds
    (setup : Setup)
    (start : Contents)
    (check : Except Error Unit)
    (find : Contents → Option ρ)
    (give : ρ → α)
    (intent : Intent)
    (fresh : ρ → Prop) : Post (Option α) :=
  fun outcome after caches =>
    start.Sought find intent fresh after ∧
      caches.Mirrors after ∧
      match outcome with
      | .ok found =>
          check = .ok () ∧ found = (find after).map give ∧
            (found = none → intent = .lookup)
      | .error error =>
          setup.trouble ≠ .none ∨ check = .error error

/- A search that starts from what an attempt left. -/
theorem ensures_attempts
    {start : Contents}
    {caches : Caches}
    {find : Contents → Option ρ}
    {give : ρ → α}
    {intent : Intent}
    {fresh : ρ → Prop}
    {action : Program (Option α)}
    (policy : Policy)
    (label : String)
    (hAction : ∀ contents caches, contents.Sound →
      start.Sought find intent fresh contents →
        caches.Mirrors contents →
          action.Ensures setup contents caches
            (Finds setup start (.ok ()) find give intent
              fresh))
    (hSound : start.Sound)
    (hMirrors : caches.Mirrors start) :
    (policy.run label action).Ensures setup start caches
      (Finds setup start (.ok ()) find give intent
        fresh) := by
  refine policy.ensures_run label
    (fun contents caches =>
      start.Sought find intent fresh contents ∧
        caches.Mirrors contents) ?_ hSound
    ⟨.refl start, hMirrors⟩
  intro contents caches hSound ⟨hSought, hMirrors⟩
  apply (hAction contents caches hSound hSought
    hMirrors).mono
  intro outcome after caches _ _ hPost
  rcases hPost with ⟨hSought, hMirrors, hEnd⟩
  cases outcome with
  | ok found => exact ⟨hSought, hMirrors, hEnd⟩
  | error error =>
      have hTrouble : setup.trouble ≠ .none := by
        simpa using hEnd
      exact ⟨⟨hSought, hMirrors⟩, fun _ =>
        ⟨hSought, hMirrors, Or.inl hTrouble⟩⟩

theorem ensures_gives
    {contents : Contents}
    {caches : Caches}
    (hSound : contents.Sound)
    (hMirrors : caches.Mirrors contents)
    (given : α) :
    (pure given : Program α).Ensures setup contents caches
      (Gives contents given) :=
  ensures_pure hSound ⟨rfl, rfl, hMirrors⟩

/- What is made of what a call gives. -/
theorem Ensures.gives_map
    {β : Type}
    {contents : Contents}
    {caches : Caches}
    {program : Program α}
    {given : α}
    (change : α → β)
    (hGives : program.Ensures setup contents caches
      (Gives contents given)) :
    (change <$> program).Ensures setup contents caches
      (Gives contents (change given)) := by
  refine Ensures.map change (hGives.mono ?_)
  intro outcome after caches _ _ hGiven
  rcases hGiven with ⟨rfl, rfl, hMirrors⟩
  exact ⟨rfl, rfl, hMirrors⟩

section Finding

variable {start contents : Contents} {caches : Caches}
variable {find : Contents → Option ρ} {give : ρ → α}
variable {fresh : ρ → Prop}

/- A search ends with a row that is there. -/
theorem ensures_found
    {intent : Intent}
    {keep : Program (Option α)}
    {row : ρ}
    (hSought : start.Sought find intent fresh contents)
    (hFind : find contents = some row)
    (hKeep : keep.Ensures setup contents caches
      (Gives contents (some (give row)))) :
    keep.Ensures setup contents caches
      (Finds setup start (.ok ()) find give intent
        fresh) := by
  apply hKeep.mono
  intro outcome after caches _ _ hGiven
  rcases hGiven with ⟨rfl, rfl, hMirrors⟩
  exact ⟨hSought, hMirrors, rfl, by simp [hFind], by simp⟩

/- A search that may not create ends without a row. -/
theorem ensures_unfound
    (hSound : contents.Sound)
    (hMirrors : caches.Mirrors contents)
    (hSought : start.Sought find .lookup fresh contents)
    (hNone : find contents = none) :
    (pure none : Program (Option α)).Ensures setup contents
      caches
      (Finds setup start (.ok ()) find give .lookup fresh) :=
  ensures_pure hSound
    ⟨hSought, hMirrors, rfl, by simp [hNone], by simp⟩

/-
  A row that is not there is added.  It is there even if the
  answer of the statement is lost.
-/
theorem ensures_added
    (hFree : setup.saved = none)
    (hSound : contents.Sound)
    (hMirrors : caches.Mirrors contents)
    (hSought : start.Sought find .create fresh contents)
    (hNone : find contents = none)
    {asked : Statement}
    {next : asked.Answer → Program (Option α)}
    (hAdds : ∀ answer after,
      asked.run setup.clock contents = .ok (answer, after) →
        after.Sound ∧ contents.Grows after ∧
          ∃ row, find after = some row ∧ fresh row ∧
            ∀ caches, caches.Mirrors after →
              (next answer).Ensures setup after caches
                (Gives after (some (give row))))
    (hNever : ∀ error,
      asked.run setup.clock contents ≠ .error error) :
    (run asked >>= next).Ensures setup contents caches
      (Finds setup start (.ok ()) find give .create
        fresh) := by
  apply ensures_run_bind hFree hSound
  · intro answer after hRun
    rcases hAdds answer after hRun with
      ⟨hAfter, hGrows, row, hFind, hFresh, hNext⟩
    have hLater := hMirrors.grows hGrows
    have hFound := hSought.add hNone hGrows hFind hFresh
    refine ⟨hAfter, ensures_found hFound hFind
      (hNext caches hLater), ?_⟩
    intro hAny error
    exact ⟨hFound, hLater, Or.inl (by simp [hAny])⟩
  · intro error hRun
    exact absurd hRun (hNever error)
  · intro hTrouble error
    exact ⟨hSought, hMirrors, Or.inl hTrouble⟩

/- A call goes on with the row that a search creates. -/
theorem Ensures.created
    {β : Type}
    {check : Except Error Unit}
    {program : Program (Option α)}
    (hFinds : program.Ensures setup start caches
      (Finds setup start check find give .create fresh))
    (what : String)
    {next : α → Program β}
    {post : Post β}
    (hNext : ∀ row after caches, after.Sound →
      start.Grows after → caches.Mirrors after →
        check = .ok () → find after = some row →
          (next (give row)).Ensures setup after caches post)
    (hError : ∀ error after caches, start.Grows after →
      caches.Mirrors after →
        post (.error error) after caches) :
    (program >>= fun found =>
      required what found >>= next).Ensures setup start
        caches post := by
  apply hFinds.bind
  · intro found after caches hAfter _ hEnd
    rcases hEnd with ⟨hSought, hMirrors, hCheck, rfl, hNone⟩
    cases hFind : find after with
    | none => simp [hFind] at hNone
    | some row =>
        exact hNext row after caches hAfter hSought.grows
          hMirrors hCheck hFind
  · intro error after caches _ _ hEnd
    exact hError error after caches hEnd.1.grows hEnd.2.1

end Finding

/-
  What a call ends with that only reads: the right outcome,
  unless a call of the store goes wrong.
-/
def Reads
    (setup : Setup)
    (contents : Contents)
    (right : Except Error α → Prop) : Post α :=
  fun outcome after caches =>
    after = contents ∧ caches.Mirrors contents ∧
      (right outcome ∨
        setup.trouble ≠ .none ∧
          ∃ error, outcome = .error error)

section Reading

variable {β : Type} {contents : Contents} {caches : Caches}

theorem reads_refused
    {right : Except Error α → Prop}
    (hMirrors : caches.Mirrors contents)
    (hTrouble : setup.trouble ≠ .none)
    (error : Error) :
    Reads setup contents right (.error error) contents
      caches :=
  ⟨rfl, hMirrors, Or.inr ⟨hTrouble, error, rfl⟩⟩

theorem ensures_reads_pure
    {right : Except Error α → Prop}
    {found : α}
    (hSound : contents.Sound)
    (hMirrors : caches.Mirrors contents)
    (hRight : right (.ok found)) :
    (pure found : Program α).Ensures setup contents caches
      (Reads setup contents right) :=
  ensures_done hSound ⟨rfl, hMirrors, Or.inl hRight⟩

/- Calls that only read are sequenced. -/
theorem Ensures.reads_bind
    {program : Program α}
    {next : α → Program β}
    {right : Except Error α → Prop}
    {final : Except Error β → Prop}
    (hFirst : program.Ensures setup contents caches
      (Reads setup contents right))
    (hNext : ∀ found caches, contents.Sound →
      caches.Mirrors contents → right (.ok found) →
        (next found).Ensures setup contents caches
          (Reads setup contents final))
    (hError : ∀ error,
      right (.error error) → final (.error error)) :
    (program >>= next).Ensures setup contents caches
      (Reads setup contents final) := by
  apply hFirst.bind
  · intro found after caches hSound _ hEnd
    rcases hEnd with
      ⟨rfl, hMirrors, hRight | ⟨-, error, hWrong⟩⟩
    · exact hNext found caches hSound hMirrors hRight
    · cases hWrong
  · intro error after caches _ _ hEnd
    rcases hEnd with ⟨rfl, hMirrors, hRight | ⟨hTrouble, -⟩⟩
    · exact ⟨rfl, hMirrors, Or.inl (hError error hRight)⟩
    · exact reads_refused hMirrors hTrouble error

/- What is made of the result of a call that only reads. -/
theorem Ensures.reads_then
    {program : Program α}
    {right : Except Error α}
    (next : α → Except Error β)
    (hFirst : program.Ensures setup contents caches
      (Reads setup contents fun outcome =>
        outcome = right)) :
    (program >>= fun found => done (next found)).Ensures
      setup contents caches
      (Reads setup contents fun outcome =>
        outcome = right >>= next) := by
  apply hFirst.reads_bind
  · intro found caches hSound hMirrors hSame
    subst hSame
    exact ensures_done hSound ⟨rfl, hMirrors, Or.inl rfl⟩
  · intro error hSame
    subst hSame
    rfl

/- A weaker right outcome. -/
theorem Ensures.reads_mono
    {program : Program α}
    {right right' : Except Error α → Prop}
    (hProgram : program.Ensures setup contents caches
      (Reads setup contents right))
    (hRight : ∀ outcome, right outcome → right' outcome) :
    program.Ensures setup contents caches
      (Reads setup contents right') :=
  hProgram.mono fun outcome _ _ _ _ ⟨hAfter, hMirrors, hEnd⟩ =>
    ⟨hAfter, hMirrors, hEnd.imp_left (hRight outcome)⟩

/- To give the right result is to read. -/
theorem Ensures.gives_reads
    {program : Program α}
    {given : α}
    {right : Except Error α → Prop}
    (hGives : program.Ensures setup contents caches
      (Gives contents given))
    (hRight : right (.ok given)) :
    program.Ensures setup contents caches
      (Reads setup contents right) := by
  apply hGives.mono
  intro outcome after caches _ _ hGiven
  rcases hGiven with ⟨rfl, rfl, hMirrors⟩
  exact ⟨rfl, hMirrors, Or.inl hRight⟩

/- Two calls that only read, and what they give together. -/
theorem ensures_reads_both
    {γ : Type}
    {first : Program α}
    {second : Program β}
    (combine : α → β → γ)
    {right : Except Error α → Prop}
    {rightNext : Except Error β → Prop}
    {final : Except Error γ → Prop}
    (hFirst : first.Ensures setup contents caches
      (Reads setup contents right))
    (hSecond : ∀ caches, caches.Mirrors contents →
      second.Ensures setup contents caches
        (Reads setup contents rightNext))
    (hFound : ∀ found more, right (.ok found) →
      rightNext (.ok more) → final (.ok (combine found more)))
    (hErrorNext : ∀ found error, right (.ok found) →
      rightNext (.error error) → final (.error error))
    (hError : ∀ error,
      right (.error error) → final (.error error)) :
    (do
      let found ← first
      let more ← second
      pure (combine found more) : Program γ).Ensures setup
        contents caches (Reads setup contents final) := by
  refine hFirst.reads_bind ?_ hError
  intro found caches _ hMirrors hRight
  refine (hSecond caches hMirrors).reads_bind ?_
    fun error => hErrorNext found error hRight
  intro more caches hSound hMirrors hMore
  exact ensures_reads_pure hSound hMirrors
    (hFound found more hRight hMore)

/- Nothing is added by a search that may not create. -/
theorem Finds.reads
    {check : Except Error Unit}
    {find : Contents → Option ρ}
    {give : ρ → α}
    {fresh : ρ → Prop}
    {outcome : Except Error (Option α)}
    {after : Contents}
    (hFinds : Finds setup contents check find give .lookup
      fresh outcome after caches) :
    Reads setup contents
      (fun outcome =>
        outcome = check.map fun _ =>
          (find contents).map give)
      outcome after caches := by
  rcases hFinds with ⟨hSought, hMirrors, hEnd⟩
  rcases hSought.same (Or.inl rfl) with rfl
  refine ⟨rfl, hMirrors, ?_⟩
  cases outcome with
  | ok found =>
      rcases hEnd with ⟨rfl, rfl, -⟩
      exact Or.inl rfl
  | error error =>
      rcases hEnd with hTrouble | rfl
      · exact Or.inr ⟨hTrouble, error, rfl⟩
      · exact Or.inl rfl

end Reading

end Program

------------------------------------------------------------
-- Tables
------------------------------------------------------------

namespace Tables

variable {setup : Setup}
variable {contents : Contents} {caches : Caches}

/- What a search for a table ends with. -/
abbrev Finds
    (setup : Setup)
    (start : Contents)
    (check : Except Error Unit)
    (name : String)
    (intent : Intent)
    (numeric : Bool) : Program.Post (Option Table) :=
  Program.Finds setup start check
    (fun contents => contents.tableNamed? name) id intent
    fun row => row.numeric = numeric

theorem ensures_findOrAdd
    (hFree : setup.saved = none)
    {start : Contents}
    {name : String}
    {intent : Intent}
    {numeric : Bool}
    (hSound : contents.Sound)
    (hSought : start.Sought
      (fun contents => contents.tableNamed? name) intent
      (fun row => row.numeric = numeric) contents)
    (hMirrors : caches.Mirrors contents) :
    (findOrAdd name intent numeric).Ensures setup contents
      caches
      (Finds setup start (.ok ()) name intent numeric) := by
  refine Program.ensures_read_bind hFree hSound rfl ?_
    fun hTrouble error => ⟨hSought, hMirrors, Or.inl hTrouble⟩
  cases hFind : contents.tableNamed? name with
  | some row =>
      have hRow := (hSound.tableNamed?_eq_some_iff.1 hFind).1
      exact Program.ensures_found hSought hFind
        ((Program.ensures_keepTable hSound hMirrors
          hRow).gives_map some)
  | none =>
      cases intent with
      | lookup =>
          exact Program.ensures_unfound hSound hMirrors
            hSought hFind
      | create =>
          apply Program.ensures_added hFree hSound hMirrors
            hSought hFind
          · intro id after hAdd
            rcases hSound.addTable hAdd with
              ⟨hAfter, hGrows, hNew⟩
            have hRow :=
              (hAfter.tableNamed?_eq_some_iff.1 hNew).1
            refine ⟨hAfter, hGrows, _, hNew, rfl, ?_⟩
            intro caches hMirrors
            exact (Program.ensures_keepTable hAfter hMirrors
              hRow).gives_map some
          · intro error hAdd
            simp [Statement.run, Contents.addTable,
              hFind] at hAdd

/- The table of a name is found or created. -/
theorem ensures_resolve
    (hFree : setup.saved = none)
    (hSound : contents.Sound)
    (hMirrors : caches.Mirrors contents)
    (policy : Policy)
    (name : String)
    (intent : Intent)
    (numeric : Bool) :
    (resolve policy name intent numeric).Ensures setup
      contents caches
      (Finds setup contents (Check.dictionary "Table" name)
        name intent numeric) := by
  refine Program.ensures_check hSound ?_ fun error hCheck =>
    ⟨.refl _, hMirrors, Or.inr hCheck⟩
  intro _ hCheck
  rw [hCheck]
  apply Program.ensures_caches hSound
  cases hKept : caches.tables.get? name with
  | some row =>
      have hFind := hSound.tableNamed?_eq_some_iff.2
        (hMirrors.tables.get?_eq_some hKept)
      exact Program.ensures_pure hSound
        ⟨.refl _, hMirrors, rfl, by simp [hFind], by simp⟩
  | none =>
      exact Program.ensures_attempts policy _
        (fun _ _ hSound hSought hMirrors =>
          ensures_findOrAdd hFree hSound hSought hMirrors)
        hSound hMirrors

/- The table of an identity is found. -/
theorem ensures_byId
    (hFree : setup.saved = none)
    (hSound : contents.Sound)
    (hMirrors : caches.Mirrors contents)
    (key : Int) :
    (byId key).Ensures setup contents caches
      (Program.Reads setup contents fun outcome =>
        outcome = .ok (contents.table? key)) := by
  apply Program.ensures_caches hSound
  cases hKept : caches.tables.lookup? key with
  | some row =>
      have hFind := hSound.table?_eq_some_iff.2
        (hMirrors.tables.lookup?_eq_some hKept)
      exact Program.ensures_reads_pure hSound hMirrors
        (by rw [hFind])
  | none =>
      refine Program.ensures_read_bind hFree hSound rfl ?_
        fun hTrouble error =>
          Program.reads_refused hMirrors hTrouble error
      cases hFind : contents.table? key with
      | none =>
          exact Program.ensures_reads_pure hSound hMirrors rfl
      | some row =>
          have hRow := (hSound.table?_eq_some_iff.1 hFind).1
          exact ((Program.ensures_keepTable hSound hMirrors
            hRow).gives_map some).gives_reads rfl

end Tables

------------------------------------------------------------
-- Attributes
------------------------------------------------------------

namespace Attributes

variable {setup : Setup}
variable {contents : Contents} {caches : Caches}

/- What a search for an attribute ends with. -/
abbrev Finds
    (setup : Setup)
    (start : Contents)
    (check : Except Error Unit)
    (tableId : Int)
    (name : String)
    (intent : Intent)
    (numeric : Bool) : Program.Post (Option Attribute) :=
  Program.Finds setup start check
    (fun contents => contents.attributeNamed? tableId name) id
    intent fun row => row.numeric = numeric

theorem ensures_findOrAdd
    (hFree : setup.saved = none)
    {start : Contents}
    {tableId : Int}
    {name : String}
    {intent : Intent}
    {numeric : Bool}
    (hSound : contents.Sound)
    (hTable : (contents.table? tableId).isSome)
    (hSought : start.Sought
      (fun contents => contents.attributeNamed? tableId name)
      intent (fun row => row.numeric = numeric) contents)
    (hMirrors : caches.Mirrors contents) :
    (findOrAdd tableId name intent numeric).Ensures setup
      contents caches
      (Finds setup start (.ok ()) tableId name intent
        numeric) := by
  refine Program.ensures_read_bind hFree hSound rfl ?_
    fun hTrouble error => ⟨hSought, hMirrors, Or.inl hTrouble⟩
  cases hFind : contents.attributeNamed? tableId name with
  | some row =>
      have hRow :=
        (hSound.attributeNamed?_eq_some_iff.1 hFind).1
      exact Program.ensures_found hSought hFind
        ((Program.ensures_keepAttribute hSound hMirrors
          hRow).gives_map some)
  | none =>
      cases intent with
      | lookup =>
          exact Program.ensures_unfound hSound hMirrors
            hSought hFind
      | create =>
          apply Program.ensures_added hFree hSound hMirrors
            hSought hFind
          · intro id after hAdd
            rcases hSound.addAttribute hAdd with
              ⟨hAfter, hGrows, hNew⟩
            have hRow :=
              (hAfter.attributeNamed?_eq_some_iff.1 hNew).1
            refine ⟨hAfter, hGrows, _, hNew, rfl, ?_⟩
            intro caches hMirrors
            exact (Program.ensures_keepAttribute hAfter
              hMirrors hRow).gives_map some
          · intro error hAdd
            simp [Statement.run, Contents.addAttribute,
              hFind, Option.isSome_iff_ne_none.1 hTable]
              at hAdd

/- The attribute of a name is found or created. -/
theorem ensures_resolve
    (hFree : setup.saved = none)
    (hSound : contents.Sound)
    (hMirrors : caches.Mirrors contents)
    (policy : Policy)
    {tableId : Int}
    (hTable : (contents.table? tableId).isSome)
    (name : String)
    (intent : Intent)
    (numeric : Bool) :
    (resolve policy tableId name intent numeric).Ensures
      setup contents caches
      (Finds setup contents (Check.dictionary "Column" name)
        tableId name intent numeric) := by
  refine Program.ensures_check hSound ?_ fun error hCheck =>
    ⟨.refl _, hMirrors, Or.inr hCheck⟩
  intro _ hCheck
  rw [hCheck]
  apply Program.ensures_caches hSound
  cases hKept : caches.attributes.get? (tableId, name) with
  | some row =>
      have hRow := hMirrors.attributes.get?_eq_some hKept
      have hFind := hSound.attributeNamed?_eq_some_iff.2
        ⟨hRow.1, Prod.mk.inj hRow.2⟩
      exact Program.ensures_pure hSound
        ⟨.refl _, hMirrors, rfl, by simp [hFind], by simp⟩
  | none =>
      refine Program.ensures_attempts policy _ ?_ hSound
        hMirrors
      intro middle caches hMiddle hSought hMirrors
      rcases Option.isSome_iff_exists.1 hTable with
        ⟨row, hRow⟩
      have hStill := hSought.grows.table?_eq_some hRow
      exact ensures_findOrAdd hFree hMiddle (by simp [hStill])
        hSought hMirrors

/- The attribute of an identity is found. -/
theorem ensures_byId
    (hFree : setup.saved = none)
    (hSound : contents.Sound)
    (hMirrors : caches.Mirrors contents)
    (key : Int) :
    (byId key).Ensures setup contents caches
      (Program.Reads setup contents fun outcome =>
        outcome = .ok (contents.attribute? key)) := by
  apply Program.ensures_caches hSound
  cases hKept : caches.attributes.lookup? key with
  | some row =>
      have hFind := hSound.attribute?_eq_some_iff.2
        (hMirrors.attributes.lookup?_eq_some hKept)
      exact Program.ensures_reads_pure hSound hMirrors
        (by rw [hFind])
  | none =>
      refine Program.ensures_read_bind hFree hSound rfl ?_
        fun hTrouble error =>
          Program.reads_refused hMirrors hTrouble error
      cases hFind : contents.attribute? key with
      | none =>
          exact Program.ensures_reads_pure hSound hMirrors rfl
      | some row =>
          have hRow :=
            (hSound.attribute?_eq_some_iff.1 hFind).1
          exact ((Program.ensures_keepAttribute hSound hMirrors
            hRow).gives_map some).gives_reads rfl

end Attributes

------------------------------------------------------------
-- Values
------------------------------------------------------------

namespace Values

variable {setup : Setup}
variable {contents : Contents} {caches : Caches}

/- What a search for a value ends with. -/
abbrev Finds
    (setup : Setup)
    (start : Contents)
    (check : Except Error Unit)
    (content : Scalar)
    (intent : Intent) : Program.Post (Option Int) :=
  Program.Finds setup start check
    (fun contents => contents.valueOf? content) Value.id
    intent fun _ => True

theorem ensures_findOrAdd
    (hFree : setup.saved = none)
    {start : Contents}
    {content : Scalar}
    {intent : Intent}
    (hStorable : content.isStorable)
    (hSound : contents.Sound)
    (hSought : start.Sought
      (fun contents => contents.valueOf? content) intent
      (fun _ => True) contents)
    (hMirrors : caches.Mirrors contents) :
    (findOrAdd content intent).Ensures setup contents caches
      (Finds setup start (.ok ()) content intent) := by
  refine Program.ensures_read_bind hFree hSound rfl ?_
    fun hTrouble error => ⟨hSought, hMirrors, Or.inl hTrouble⟩
  cases hFind : contents.valueOf? content with
  | some row =>
      rcases hSound.valueOf?_eq_some_iff.1 hFind with
        ⟨hRow, hContent⟩
      have hKeep : (⟨row.id, content.normalized⟩ : Value) ∈
          contents.values.rows := by
        rw [← hContent]
        exact hRow
      exact Program.ensures_found hSought hFind
        ((Program.ensures_keepValue hSound hMirrors
          hKeep).gives_map fun _ => some row.id)
  | none =>
      cases intent with
      | lookup =>
          exact Program.ensures_unfound hSound hMirrors
            hSought hFind
      | create =>
          apply Program.ensures_added hFree hSound hMirrors
            hSought hFind
          · intro id after hAdd
            rcases hSound.addValue hStorable hAdd with
              ⟨hAfter, hGrows, hNew⟩
            have hRow :=
              (hAfter.valueOf?_eq_some_iff.1 hNew).1
            refine ⟨hAfter, hGrows, _, hNew, trivial, ?_⟩
            intro caches hMirrors
            exact (Program.ensures_keepValue hAfter hMirrors
              hRow).gives_map fun _ => some id
          · intro error hAdd
            simp [Statement.run, Contents.addValue,
              hFind] at hAdd

theorem isStorable_of_check
    {content : Scalar}
    (hCheck : Check.storable content = .ok ()) :
    content.isStorable := by
  by_contra hNot
  simp [Check.storable, Check.that, hNot] at hCheck

/- The identity of a scalar is found or created. -/
theorem ensures_resolve
    (hFree : setup.saved = none)
    (hSound : contents.Sound)
    (hMirrors : caches.Mirrors contents)
    (policy : Policy)
    (content : Scalar)
    (intent : Intent) :
    (resolve policy content intent).Ensures setup contents
      caches
      (Finds setup contents (Check.storable content) content
        intent) := by
  refine Program.ensures_check hSound ?_ fun error hCheck =>
    ⟨.refl _, hMirrors, Or.inr hCheck⟩
  intro _ hCheck
  have hStorable := isStorable_of_check hCheck
  rw [hCheck]
  apply Program.ensures_caches hSound
  cases hKept : caches.values.get? content with
  | some key =>
      have hFind := hSound.valueOf?_eq_some_iff.2
        ⟨hMirrors.values.get?_eq_some hKept, rfl⟩
      exact Program.ensures_pure hSound
        ⟨.refl _, hMirrors, rfl, by simp [hFind], by simp⟩
  | none =>
      exact Program.ensures_attempts policy _
        (fun _ _ hSound hSought hMirrors =>
          ensures_findOrAdd hFree hStorable hSound hSought
            hMirrors)
        hSound hMirrors

/-
  The scalar of an identity is found, up to the sign of zero:
  it may be the one that was kept when it was written.
-/
theorem ensures_byId
    (hFree : setup.saved = none)
    (hSound : contents.Sound)
    (hMirrors : caches.Mirrors contents)
    (key : Int) :
    (byId key).Ensures setup contents caches
      (Program.Reads setup contents fun outcome =>
        ∃ found, outcome = .ok found ∧
          found.map Scalar.normalized =
            (contents.value? key).map Value.content) := by
  apply Program.ensures_caches hSound
  cases hKept : caches.values.lookup? key with
  | some content =>
      have hFind := hSound.value?_eq_some_iff.2
        ⟨hMirrors.values.lookup?_eq_some hKept, rfl⟩
      exact Program.ensures_reads_pure hSound hMirrors
        ⟨_, rfl, by simp [hFind]⟩
  | none =>
      refine Program.ensures_read_bind hFree hSound rfl ?_
        fun hTrouble error =>
          Program.reads_refused hMirrors hTrouble error
      cases hFind : contents.value? key with
      | none =>
          exact Program.ensures_reads_pure hSound hMirrors
            ⟨_, rfl, rfl⟩
      | some row =>
          rcases hSound.value?_eq_some_iff.1 hFind with
            ⟨hRow, rfl⟩
          have hNormal := hSound.normalized row hRow
          have hKeep :
              (⟨row.id, row.content.normalized⟩ : Value) ∈
                contents.values.rows := by
            rw [hNormal]
            exact hRow
          exact ((Program.ensures_keepValue hSound hMirrors
            hKeep).gives_map fun _ =>
              some row.content).gives_reads
            ⟨_, rfl, by simp [hNormal]⟩

end Values

end SparseTables
