import SparseTables.Proofs.Program.Ending
import SparseTables.Proofs.Query.Writing
import SparseTables.Proofs.Session.Naming
import SparseTables.Proofs.Tasks.Calls

/-
  This file states what of a query gets into the text of its
  statement, in any state of a store: clean aliases, checked
  operators and parameters, and the limit.  The values of
  parameters do not, so they can change nothing but the
  parameters that are sent along.

  Main declarations:
    * `Session.compile_with_params`
    * `Session.compile_gives_no_mark`
-/

namespace SparseTables

namespace Session

/- A query is planned whatever its parameters are. -/
theorem compile_with_params
    (policies : Policies)
    (query : Select)
    (others : NameMap Scalar) :
    compile policies { query with params := others } =
      (fun found =>
        (found.1, Params.ofScalars others.entries)) <$>
          compile policies query := by
  unfold compile
  simp only [map_bind]
  refine congrArg (Program.done query.check >>= ·)
    (funext fun _ => congrArg
      (Tables.resolve policies.rows query.source .lookup
        false >>= ·) (funext fun table => ?_))
  cases table with
  | none => rfl
  | some row =>
      simp only [map_bind, map_pure]
      rfl

theorem params_of_compile
    {policies : Policies}
    {query : Select}
    {plan : Plan}
    {params : Params}
    (hYields : (compile policies query).Yields
      (.ok (plan, params))) :
    params = Params.ofScalars query.params.entries := by
  unfold compile at hYields
  rcases hYields.of_bind with ⟨⟨⟩, -, hYields⟩
  rcases hYields.of_bind with ⟨table, -, hYields⟩
  cases table with
  | none =>
      cases Program.Yields.of_done hYields
      rfl
  | some row =>
      rcases hYields.of_bind with ⟨known, -, hYields⟩
      cases Program.Yields.of_done hYields
      rfl

/-
  The text of a statement is made of words of the language,
  identities of rows, and chunks that fit the query.  What
  the query gives, operators apart, has no character that
  could end a word.  The text is the same for all values of
  the parameters, which are sent beside it.
-/
theorem compile_gives_no_mark
    {shared after : Shared}
    (policies : Policies)
    {query : Select}
    {plan : Plan}
    {params : Params}
    (hCompile : (compile policies query).advance shared =
      (.finished (.ok (plan, params)), after)) :
    (∀ given clock,
      (Statement.select plan given).text clock =
        Chunk.write plan.chunks) ∧
      (∀ chunk ∈ plan.chunks, chunk.Fits query ∧
        ∀ text ∈ chunk.given?,
          ∀ c ∈ text.toList, c ∉ Chunk.marks) ∧
      params = Params.ofScalars query.params.entries ∧
      ∀ others : NameMap Scalar,
        (compile policies
          { query with params := others }).advance shared =
            (.finished (.ok
              (plan, Params.ofScalars others.entries)),
                after) := by
  rcases exists_build_of_compile (.of_advance hCompile) with
    ⟨hCheck, table, known, hSublist, rfl⟩
  have hKnown : ∀ entry ∈ known,
      entry.1 ∈ query.referenced :=
    fun entry hEntry =>
      hSublist.subset (List.mem_map_of_mem hEntry)
  have hFits : Chunk.AllFit query
      (Plan.build query table known).chunks :=
    Plan.fits_build hCheck hKnown
  refine ⟨fun given clock => Plan.text_eq_write _,
    fun chunk hChunk => ⟨hFits chunk hChunk,
      fun text hGiven c hMem =>
        (hFits chunk hChunk).not_mem_marks hGiven hMem⟩,
    params_of_compile (.of_advance hCompile), fun others => ?_⟩
  rw [compile_with_params]
  exact Program.advance_andThen _ hCompile

/- A parameter that looks like a statement is just a text. -/
theorem compile_gives_no_mark_hostile :
    ∃ plan params after,
      (compile default (showing "a_b" "ab")).advance
          (withTexts "a_b" "ab") =
        (.finished (.ok (plan, params)), after) ∧
      Chunk.write plan.chunks =
        "SELECT\nivab.stringValue AS \"ab\"," ++
          "\nivab2.stringValue AS \"ab2\"" ++
          "\nFROM items AS i" ++
          "\nLEFT OUTER JOIN item_values AS ivab ON " ++
            "ivab.itemid = i.id AND ivab.nameid = 1" ++
          "\nLEFT OUTER JOIN item_values AS ivab2 ON " ++
            "ivab2.itemid = i.id AND ivab2.nameid = 2" ++
          "\nJOIN bvalues_fts AS ftsab ON " ++
            "ftsab.rowid = ivab.valueid" ++
          "\nWHERE i.tableid = 1" ++
          "\nAND (ftsab.bvalues_fts MATCH @q)" ++
          "\nORDER BY \"ab2\" DESC" ∧
      (∀ chunk ∈ plan.chunks,
        chunk.Fits (showing "a_b" "ab")) ∧
      (compile default { showing "a_b" "ab" with
          params := NameMap.empty.insert "@q"
            (.text "x'; DROP TABLE items; --") }).advance
          (withTexts "a_b" "ab") =
        (.finished (.ok (plan, Params.ofScalars
          [("@q", .text "x'; DROP TABLE items; --")])),
            after) := by
  have hFound : ((compile default
      (showing "a_b" "ab")).advance
        (withTexts "a_b" "ab")).1 =
      .finished (.ok
        ((withTexts "a_b" "ab").contents.planOf
          (showing "a_b" "ab"), .empty)) :=
    Progress.eq_of_result? (by decide +kernel)
  rcases hRun : (compile default
      (showing "a_b" "ab")).advance (withTexts "a_b" "ab")
    with ⟨progress, after⟩
  rw [hRun] at hFound
  cases hFound
  rcases compile_gives_no_mark default hRun with
    ⟨-, hChunks, -, hOthers⟩
  exact ⟨_, _, after, rfl, by decide +kernel,
    fun chunk hChunk => (hChunks chunk hChunk).1,
    hOthers _⟩

end Session

end SparseTables
