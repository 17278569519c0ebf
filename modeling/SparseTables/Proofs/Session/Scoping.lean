import SparseTables.Proofs.Query.Scoping
import SparseTables.Proofs.Session.Compiling

/-
  This file states what callers can rely on about the aliases
  and the joins in the statements that their queries become,
  whatever the store and the caches hold and whatever fails.

  Main declarations:
    * `Caches.heldIn?`
    * `Session.tells_compile`
    * `Session.compiled_statements_are_scoped`
-/

namespace SparseTables

open Program

------------------------------------------------------------
-- What is held
------------------------------------------------------------

namespace Caches

variable (caches : Caches) (contents : Contents)

/- The attribute of a column that the dictionaries hold. -/
def heldIn? (source column : String) : Option Attribute :=
  if Word.isReserved column then
    none
  else
    (caches.tableIn? contents source).bind fun table =>
      caches.attributeIn? contents table.id column

/- The held attributes that a query mentions. -/
def mentionedIn (query : Select) : List Attribute :=
  query.referenced.filterMap
    (caches.heldIn? contents query.source)

variable {caches : Caches} {contents : Contents}

/- The attributes that are joined are those that are held. -/
theorem knownIn_map_snd (query : Select) :
    ((caches.tableIn? contents query.source).elim []
      fun table => caches.knownIn contents table
        query.referenced).map Prod.snd =
      caches.mentionedIn contents query := by
  unfold mentionedIn heldIn?
  cases caches.tableIn? contents query.source with
  | none => simp
  | some table =>
      rw [Option.elim_some, knownIn, List.map_filterMap]
      refine List.filterMap_congr fun column _ => ?_
      split
      · rfl
      · simp [Function.comp_def]

/- A coherent dictionary holds a column under its name. -/
theorem Mirrors.of_heldIn?
    (hMirrors : caches.Mirrors contents)
    {source column : String}
    {row : Attribute}
    (hHeld : caches.heldIn? contents source column =
      some row) :
    row ∈ contents.attributes.rows ∧ row.name = column := by
  unfold heldIn? at hHeld
  split at hHeld
  · cases hHeld
  rcases Option.bind_eq_some_iff.1 hHeld with
    ⟨table, -, hRow⟩
  rcases Option.or_eq_some_iff.1 hRow with
    hKept | ⟨-, hStored⟩
  · rcases hMirrors.attributes.get?_eq_some hKept with
      ⟨hMem, hKey⟩
    exact ⟨hMem, (Prod.mk.inj hKey).2⟩
  · have hNames := List.find?_some hStored
    simp only [Bool.and_eq_true, beq_iff_eq] at hNames
    exact ⟨List.mem_of_find?_eq_some hStored, hNames.2⟩

/- No attribute is held under two names. -/
theorem Mirrors.nodup_mentionedIn
    (hMirrors : caches.Mirrors contents)
    (hKeyed : contents.Keyed)
    (query : Select) :
    ((caches.mentionedIn contents query).map
      Attribute.id).Nodup := by
  have hRow {row : Attribute}
      (hMem : row ∈ caches.mentionedIn contents query) :
      row ∈ contents.attributes.rows := by
    rcases List.mem_filterMap.1 hMem with ⟨column, -, hHeld⟩
    exact (hMirrors.of_heldIn? hHeld).1
  have hNames :
      (caches.mentionedIn contents query).Nodup := by
    refine query.nodup_referenced.filterMap ?_
    intro first second row hFirst hSecond
    rw [← (hMirrors.of_heldIn? hFirst).2,
      (hMirrors.of_heldIn? hSecond).2]
  exact hNames.map_on fun row hMem other hOther hSame =>
    hKeyed.attributes.eq_of_id (hRow hMem) (hRow hOther) hSame

end Caches

------------------------------------------------------------
-- Looking up whatever fails
------------------------------------------------------------

variable {contents : Contents}

/- A table that is given is the one that is held. -/
theorem Tables.tells_lookup
    (policy : Policy)
    (name : String)
    (caches : Caches) :
    (resolve policy name .lookup false).Tells contents caches
      (Told fun found kept =>
        found = caches.tableIn? contents name ∧
          kept.attributes = caches.attributes) := by
  refine tells_check (fun _ => ?_) fun error => told_error error _
  refine tells_caches ?_
  unfold Caches.tableIn?
  cases hGet : caches.tables.get? name with
  | some kept => exact tells_given ⟨rfl, rfl⟩
  | none =>
      refine policy.tells_run _ ?_
      refine tells_read_bind (fun _ => rfl) ?_ fun _ => rfl
      cases hFind : contents.tableNamed? name with
      | none => exact tells_done ⟨rfl, rfl⟩
      | some row =>
          have hRow : row.name = name := by
            simpa using List.find?_some hFind
          subst hRow
          have hKept : (caches.tables.keep row).2.get?
              row.name = some row := by
            rw [Keeper.get?_keep_of_free hGet]
            exact if_pos rfl
          refine tells_cached (tells_done ?_)
          dsimp only
          rw [hKept]
          exact ⟨rfl, rfl⟩

/- An attribute that is given is held, and all others stay. -/
theorem Attributes.tells_lookup
    (policy : Policy)
    (tableId : Int)
    (name : String)
    (caches : Caches) :
    (resolve policy tableId name .lookup false).Tells contents
      caches
      (Told fun found kept =>
        found = caches.attributeIn? contents tableId name ∧
          kept.attributeIn? contents =
            caches.attributeIn? contents) := by
  refine tells_check (fun _ => ?_) fun error =>
    told_error error _
  refine tells_caches ?_
  cases hGet : caches.attributes.get? (tableId, name) with
  | some kept =>
      refine tells_given ⟨?_, rfl⟩
      rw [Caches.attributeIn?, hGet]
      rfl
  | none =>
      refine policy.tells_run _ ?_
      refine tells_read_bind (fun _ => rfl) ?_ fun _ => rfl
      cases hFind : contents.attributeNamed? tableId name with
      | none =>
          refine tells_done ⟨?_, rfl⟩
          rw [Caches.attributeIn?, hGet, hFind]
          rfl
      | some row =>
          have hRow : row.tableId = tableId ∧
              row.name = name := by
            simpa using List.find?_some hFind
          rcases hRow with ⟨rfl, rfl⟩
          have hKeep (key : Int × String) :
              (caches.attributes.keep row).2.get? key =
                if key = (row.tableId, row.name) then some row
                else caches.attributes.get? key :=
            Keeper.get?_keep_of_free hGet key
          refine tells_cached (tells_done ⟨?_, ?_⟩)
          · dsimp only
            rw [(hKeep (row.tableId, row.name)).trans
                (if_pos rfl), Caches.attributeIn?, hGet, hFind]
            rfl
          · funext otherId other
            unfold Caches.attributeIn?
            rw [hKeep]
            split
            · rename_i hSame
              cases hSame
              rw [hGet, hFind]
              rfl
            · rfl

namespace Session

variable {policies : Policies} {query : Select}

/- The attributes that are given are those that are held. -/
theorem tells_knownAmong
    (policies : Policies)
    (table : Table)
    (columns : List String)
    (caches : Caches) :
    (knownAmong policies table columns).Tells contents caches
      (Told fun found _ =>
        found = caches.knownIn contents table columns) := by
  induction columns generalizing caches with
  | nil => exact tells_given rfl
  | cons column rest ih =>
      unfold knownAmong Caches.knownIn
      rw [List.filterMap_cons]
      by_cases hWord : Word.isReserved column = true
      · rw [if_pos hWord, if_pos hWord]
        exact ih caches
      · rw [if_neg hWord, if_neg hWord]
        refine (Attributes.tells_lookup policies.rows table.id
          column caches).bind_told ?_
        rintro _ between ⟨rfl, hSame⟩
        refine (ih between).bind_told ?_
        rintro _ kept rfl
        refine tells_given ?_
        rw [Caches.knownIn, hSame]
        cases caches.attributeIn? contents table.id column <;>
          rfl

/- A query that is compiled gets the plan that is held. -/
theorem tells_compile
    (policies : Policies)
    (query : Select)
    (caches : Caches) :
    (compile policies query).Tells contents caches
      (Told fun found _ =>
        found = (caches.planIn contents query,
          Params.ofScalars query.params.entries)) := by
  refine tells_check (fun _ => ?_) fun error =>
    told_error error _
  refine (Tables.tells_lookup policies.rows query.source
    caches).bind_told ?_
  rintro _ between ⟨rfl, hAttributes⟩
  have hSame (table : Table) :
      between.knownIn contents table =
        caches.knownIn contents table := by
    unfold Caches.knownIn Caches.attributeIn?
    rw [hAttributes]
  unfold Caches.planIn
  cases caches.tableIn? contents query.source with
  | none => exact tells_given rfl
  | some table =>
      refine (tells_knownAmong policies table query.referenced
        between).bind_told ?_
      rintro _ kept rfl
      refine tells_given ?_
      rw [hSame]
      rfl

------------------------------------------------------------
-- Statements
------------------------------------------------------------

/-
  Whatever the store and the caches hold, and whatever fails
  on the way, the statement of a query that is compiled
  refers only to aliases that it introduces, and a join only
  to itself and earlier ones.  There is a join for the key if
  it is mentioned and the table is known, one for each
  mentioned attribute that is held, and one for each search
  that is not written as false, of which the first one ranks
  the rows that have no other order.
-/
theorem compiled_statements_are_scoped
    {shared after : Shared}
    (policies : Policies)
    {query : Select}
    {plan : Plan}
    {params : Params}
    (hCompile : (compile policies query).advance shared =
      (.finished (.ok (plan, params)), after)) :
    plan.text = Chunk.write plan.chunks ∧ plan.Scoped ∧
      plan.Serves query
        (shared.caches.tableIn? shared.contents
          query.source).isSome
        (shared.caches.mentionedIn shared.contents query) ∧
      (Reachable shared → plan.attributeIds.Nodup) := by
  have hTold := (tells_compile policies query shared.caches
    shared.store _ after rfl hCompile).2 _ rfl
  have hPlan : plan = shared.caches.planIn shared.contents
      query :=
    congrArg Prod.fst hTold
  subst hPlan
  rcases exists_build_of_compile (.of_advance hCompile) with
    ⟨-, table, known, hSublist, hBuild⟩
  have hScoped : (shared.caches.planIn shared.contents
      query).Scoped := by
    rw [hBuild]
    exact Plan.scoped_build fun entry hEntry =>
      hSublist.subset (List.mem_map_of_mem hEntry)
  have hServes : (shared.caches.planIn shared.contents
      query).Serves query
        (shared.caches.tableIn? shared.contents
          query.source).isSome
        (shared.caches.mentionedIn shared.contents query) := by
    rw [← Caches.knownIn_map_snd]
    exact Plan.serves_build
  refine ⟨Plan.text_eq_write _, hScoped, hServes,
    fun hReachable => ?_⟩
  have hRest := hReachable.atRest
  rw [hServes.attributes]
  exact hRest.mirrors.nodup_mentionedIn hRest.sound.keyed
    query

/- A query with a key, an attribute, and an unknown column. -/
def searching : Select where
  columns := ["a", "b"]
  source := "t"
  groups := [⟨.any,
    [⟨"value", "=", "@p"⟩, ⟨"b", "matches", "@q"⟩,
      ⟨"a", "matches", "@q"⟩]⟩]
  orders := []
  limit := 0
  params := .empty

/- What is unknown is not joined, and a search ranks. -/
theorem compiled_statements_are_scoped_searching :
    ∃ plan params after,
      (compile default searching).advance
          (withTexts "a" "c") =
        (.finished (.ok (plan, params)), after) ∧
      plan.aliases = ["i", "bv", "iva", "ftsa"] ∧
      plan.orders = [.rank "ftsa"] ∧
      plan.Scoped ∧ plan.attributeIds.Nodup := by
  have hRun : (compile default searching).advance
        (withTexts "a" "c") =
      (.finished (.ok
        ((withTexts "a" "c").contents.planOf searching,
          .empty)), _) :=
    Prod.ext (Progress.eq_of_result? (by decide +kernel)) rfl
  rcases compiled_statements_are_scoped default hRun with
    ⟨-, hScoped, -, hNodup⟩
  exact ⟨_, _, _, hRun, by decide +kernel,
    by decide +kernel, hScoped,
    hNodup (reachable_withTexts "a" "c")⟩

end Session

end SparseTables
