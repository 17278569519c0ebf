import SparseTables.Proofs.Plan.Writing
import SparseTables.Proofs.Query.Wiring

/-
  This file shows what the text of a compiled query is made
  of: words of the language, which are the same for all
  queries, identities of rows, and what stems from the query.

  What stems from a query are aliases, which are cleaned of
  everything but ASCII letters and digits, the operators and
  the parameters of criteria, and the limit.  So a query can
  end no word of the text, and begin none.

  Main declarations:
    * `Chunk.vocabulary`
    * `Chunk.Fits`
    * `Chunk.Fits.not_mem_marks`
    * `Plan.fits_build`
-/

namespace SparseTables

------------------------------------------------------------
-- What chunks may be
------------------------------------------------------------

/- All bases of a query can be aliases. -/
theorem Select.isAlias_base
    {query : Select}
    {base : String}
    (hBase : base ∈ query.bases) :
    Word.isAlias base = true := by
  rcases Select.mem_bases_iff.1 hBase with
    rfl | ⟨column, -, rfl | rfl⟩
  · decide
  · exact Word.isAlias_append_clean (by decide) column
  · exact Word.isAlias_append_clean (by decide) column

namespace Chunk

/- The words of the language that plans are written with. -/
def vocabulary : List String :=
  ["SELECT\n", ",\n", " AS ", "NULL", "COUNT(*)", ".", "id",
    "created", "lastmodified", "numberValue", "stringValue",
    "\nFROM items AS ", "\n", "JOIN bvalues AS ",
    "LEFT OUTER JOIN item_values AS ",
    "JOIN bvalues_fts AS ", " ON ", ".id = ", ".valueid",
    ".itemid = ", ".id AND ", ".nameid = ", ".rowid = ",
    "\nWHERE ", "\nAND ", ".tableid = ", "1 = 0", "(", ")",
    " ", " AND ", " OR ", ".bvalues_fts MATCH ",
    "\nORDER BY ", ", ", "DESC", "ASC", ".rank ASC",
    "\nLIMIT "]

/- The characters that end or begin words of the language. -/
def marks : List Char :=
  "\"'; \t\n\r(),.-/*=".toList

/-
  A chunk fits a query if it is a word of the language or the
  identity of a row, or if it stems from the query: a clean
  alias, an operator or a parameter of a criterion, or the
  limit.
-/
inductive Fits (query : Select) : Chunk → Prop where
  | word
      {text : String}
      (hText : text ∈ vocabulary) :
      Fits query (.word text)
  | identity (id : Int) : Fits query (.identity id)
  | label
      {text : String}
      (hText : Word.isAlias text = true) :
      Fits query (.label text)
  | quoted
      {text : String}
      (hText : Word.isAlias text = true) :
      Fits query (.quoted text)
  | operator
      {part : Criterion}
      (hPart : part ∈ query.criteria)
      (hText : Word.isOperator part.op = true) :
      Fits query (.operator part.op)
  | parameter
      {part : Criterion}
      (hPart : part ∈ query.criteria)
      (hName : Word.isParameter part.param = true) :
      Fits query (.parameter part.param)
  | limit
      (hSome : query.limit ≠ 0) :
      Fits query (.limit query.limit)

@[simp]
theorem fits_word {query : Select} {text : String} :
    (word text).Fits query ↔ text ∈ vocabulary :=
  ⟨fun hFits => by cases hFits; assumption, .word⟩

@[simp]
theorem fits_identity {query : Select} {id : Int} :
    (identity id).Fits query :=
  .identity id

@[simp]
theorem fits_label {query : Select} {text : String} :
    (label text).Fits query ↔ Word.isAlias text = true :=
  ⟨fun hFits => by cases hFits; assumption, .label⟩

@[simp]
theorem fits_quoted {query : Select} {text : String} :
    (quoted text).Fits query ↔ Word.isAlias text = true :=
  ⟨fun hFits => by cases hFits; assumption, .quoted⟩

/- All chunks fit a query. -/
def AllFit (query : Select) (chunks : List Chunk) : Prop :=
  ∀ chunk ∈ chunks, chunk.Fits query

section AllFit

variable {query : Select} {chunks : List Chunk}

@[simp]
theorem allFit_nil : AllFit query [] :=
  fun _ hMem => (List.not_mem_nil hMem).elim

@[simp]
theorem allFit_cons {chunk : Chunk} :
    AllFit query (chunk :: chunks) ↔
      chunk.Fits query ∧ AllFit query chunks :=
  List.forall_mem_cons

@[simp]
theorem allFit_append {more : List Chunk} :
    AllFit query (chunks ++ more) ↔
      AllFit query chunks ∧ AllFit query more :=
  List.forall_mem_append

theorem allFit_between
    {separator : String}
    (hSeparator : separator ∈ vocabulary)
    {parts : List (List Chunk)}
    (hParts : ∀ part ∈ parts, AllFit query part) :
    AllFit query (between separator parts) := by
  intro chunk hMem
  rcases mem_between hMem with rfl | ⟨part, hPart, hIn⟩
  · exact .word hSeparator
  · exact hParts part hPart chunk hIn

end AllFit

/- What a chunk has from names, parameters and the limit. -/
def given? : Chunk → Option String
  | label text | quoted text | parameter text => some text
  | limit count => some (toString count)
  | word _ | identity _ | operator _ => none

theorem not_mem_marks_of_isTail
    {c : Char}
    (hTail : Word.isTail c = true ∨ c = '@') :
    c ∉ marks := by
  have hMarks : marks.all (fun mark =>
      !Word.isTail mark && mark != '@') = true := by
    decide
  intro hMark
  have hApart := List.all_eq_true.1 hMarks c hMark
  rcases hTail with hTail | hTail
  · simp [hTail] at hApart
  · simp [hTail] at hApart

theorem isTail_of_isParameter
    {name : String}
    (hName : Word.isParameter name = true)
    {c : Char}
    (hMem : c ∈ name.toList) :
    Word.isTail c = true ∨ c = '@' := by
  unfold Word.isParameter at hName
  split at hName
  · rename_i rest hList
    rw [hList] at hMem
    rcases List.mem_cons.1 hMem with rfl | hRest
    · exact .inr rfl
    · left
      unfold Word.isWordList Word.isName at hName
      cases rest with
      | nil => cases hRest
      | cons first more =>
          simp only [Bool.and_eq_true, List.all_eq_true]
            at hName
          rcases List.mem_cons.1 hRest with rfl | hMore
          · simp [Word.isTail, Char.isAlphanum, hName.1.1]
          · exact hName.1.2 c hMore
  · cases hName

/- No name, parameter or limit gives a mark to the text. -/
theorem Fits.not_mem_marks
    {query : Select}
    {chunk : Chunk}
    (hFits : chunk.Fits query)
    {given : String}
    (hGiven : given ∈ chunk.given?)
    {c : Char}
    (hMem : c ∈ given.toList) :
    c ∉ marks := by
  apply not_mem_marks_of_isTail
  cases hFits with
  | word | identity | operator => cases hGiven
  | label hText =>
      cases hGiven
      have hKept := Word.isAlphanum_of_isAlias hText hMem
      exact .inl (by simp [Word.isTail, hKept])
  | quoted hText =>
      cases hGiven
      have hKept := Word.isAlphanum_of_isAlias hText hMem
      exact .inl (by simp [Word.isTail, hKept])
  | parameter hPart hName =>
      cases hGiven
      exact isTail_of_isParameter hName hMem
  | limit =>
      cases hGiven
      have hDigit := isDigit_of_mem_toString hMem
      left
      simp [Word.isTail, Char.isAlphanum, hDigit]

end Chunk

------------------------------------------------------------
-- The chunks of a compiled query
------------------------------------------------------------

/- The criteria of an accepted query. -/
theorem Select.criteria_of_check
    {query : Select}
    (hCheck : query.check = .ok ())
    {part : Criterion}
    (hPart : part ∈ query.criteria) :
    Word.isOperator part.op = true ∧
      Word.isParameter part.param = true := by
  unfold check at hCheck
  simp only [Except.then_eq_ok_iff, Check.that_eq_ok_iff,
    Except.forM_eq_ok_iff, Check.operator, Check.parameter,
    Check.criterion] at hCheck
  rcases hCheck with ⟨-, -, -, -, -, -, hParts⟩
  exact (hParts part hPart).2

/- An expression refers to such aliases only. -/
def Expr.Refers (such : String → Prop) : Expr → Prop
  | value label _ => such label
  | _ => True

namespace Chunk

variable {query : Select}

theorem isAlias_itemAlias :
    Word.isAlias itemAlias = true := by
  decide

theorem allFit_expr
    {expr : Expr}
    (hRefers : expr.Refers fun label =>
      Word.isAlias label = true) :
    AllFit query expr.chunks := by
  cases expr with
  | null => simp [Expr.chunks, vocabulary]
  | countAll => simp [Expr.chunks, vocabulary]
  | item column =>
      cases column <;>
        simp [Expr.chunks, vocabulary, isAlias_itemAlias,
          ItemColumn.name]
  | value label column =>
      have hLabel : Word.isAlias label = true := hRefers
      cases column <;>
        simp [Expr.chunks, vocabulary, hLabel,
          ValueColumn.name]

/- A join has its alias and the one that it refers to. -/
theorem allFit_join
    {join : Join}
    (hLabel : Word.isAlias join.label = true)
    (hSource : ∀ label source, join = .search label source →
      Word.isAlias source = true) :
    AllFit query join.chunks := by
  cases join with
  | key =>
      have hKey : Word.isAlias keyAlias = true := hLabel
      simp [Join.chunks, vocabulary, isAlias_itemAlias, hKey]
  | attr label id =>
      have hLabel : Word.isAlias label = true := hLabel
      simp [Join.chunks, vocabulary, isAlias_itemAlias,
        hLabel]
  | search label source =>
      have hLabel : Word.isAlias label = true := hLabel
      simp [Join.chunks, vocabulary, hLabel,
        hSource label source rfl]

end Chunk

namespace Plan

variable {query : Select} {table : Option Table}
variable {known : List (String × Attribute)}

/- The aliases of joins are aliases. -/
theorem isAlias_label
    (hKnown : ∀ entry ∈ known, entry.1 ∈ query.referenced)
    {join : Join}
    (hJoin : join ∈ (build query table known).joins) :
    Word.isAlias join.label = true := by
  rcases (labels_build table hKnown).2 join.label
    (List.mem_map_of_mem hJoin) with ⟨base, hBase, hNumbers⟩
  exact hNumbers.isAlias (Select.isAlias_base hBase)

/- So are those of attributes that columns stand for. -/
theorem isAlias_bound
    (hKnown : ∀ entry ∈ known, entry.1 ∈ query.referenced)
    {bound : Bound}
    (hBound : bound ∈ (query.scope table known).bound) :
    Word.isAlias bound.label = true := by
  rcases build_renders query table known with
    ⟨searches, hJoins, -⟩
  have hJoin : bound.join ∈
      (build query table known).joins := by
    rw [hJoins]
    exact List.mem_append_left _ (List.mem_append_right _
      (List.mem_map_of_mem hBound))
  exact isAlias_label hKnown hJoin

theorem refers_expr?
    (hKnown : ∀ entry ∈ known, entry.1 ∈ query.referenced)
    {column : String}
    {expr : Expr}
    (hExpr : (query.scope table known).expr? column =
      some expr) :
    expr.Refers fun label => Word.isAlias label = true := by
  unfold Scope.expr? at hExpr
  split at hExpr
  · rename_i bound hFind
    cases hExpr
    exact isAlias_bound hKnown (Scope.mem_of_find? hFind).1
  · unfold Scope.pseudo? at hExpr
    dsimp only at hExpr
    split_ifs at hExpr
    · rcases Option.map_eq_some_iff.1 hExpr with
        ⟨row, -, rfl⟩
      exact (by decide : Word.isAlias keyAlias = true)
    all_goals
      cases hExpr
      trivial

/- What a search is in has an alias. -/
theorem isAlias_source
    (hKnown : ∀ entry ∈ known, entry.1 ∈ query.referenced)
    {column source : String}
    (hSource : (query.scope table known).source? column =
      some source) :
    Word.isAlias source = true := by
  rcases hasValue_of_source? hSource with
    rfl | ⟨join, hJoin, -, rfl⟩
  · exact Chunk.isAlias_itemAlias
  · exact isAlias_label hKnown hJoin

------------------------------------------------------------
-- The parts of a plan
------------------------------------------------------------

theorem isAlias_column
    {label : String}
    (hLabel : label ∈ (build query table known).outputs.map
      Prod.snd) :
    Word.isAlias label = true := by
  rcases ((project_labels _ .empty query.columns).2 label
    hLabel).2 with ⟨column, -, hNumbers⟩
  exact hNumbers.isAlias (Word.isAlias_clean column)

theorem allFit_output
    (hKnown : ∀ entry ∈ known, entry.1 ∈ query.referenced)
    {output : Expr × String}
    (hOutput : output ∈ (build query table known).outputs) :
    Chunk.AllFit query (outputChunks output) := by
  have hExpr : output.1 ∈
      query.columns.map (query.scope table known).output := by
    rw [← project_map_fst _ .empty]
    exact List.mem_map_of_mem hOutput
  have hRefers : output.1.Refers fun label =>
      Word.isAlias label = true := by
    rcases List.mem_map.1 hExpr with ⟨column, -, hSame⟩
    rw [← hSame, Scope.output]
    split
    · trivial
    · cases hFound :
          (query.scope table known).expr? column with
      | none => trivial
      | some expr => exact refers_expr? hKnown hFound
  have hLabel : Word.isAlias output.2 = true :=
    isAlias_column (List.mem_map_of_mem hOutput)
  simp [outputChunks, Chunk.allFit_expr hRefers,
    Chunk.vocabulary, hLabel]

theorem allFit_joins
    (hKnown : ∀ entry ∈ known, entry.1 ∈ query.referenced)
    {join : Join}
    (hJoin : join ∈ (build query table known).joins) :
    Chunk.AllFit query join.chunks := by
  refine Chunk.allFit_join (isAlias_label hKnown hJoin) ?_
  rintro label source rfl
  rcases exists_renders_of_search hKnown hJoin with
    ⟨-, -, -, -, -, part, -, -, -, hSource⟩
  exact isAlias_source hKnown hSource

/- A predicate is made of a checked criterion. -/
theorem allFit_predicate
    (hCheck : query.check = .ok ())
    (hKnown : ∀ entry ∈ known, entry.1 ∈ query.referenced)
    {group : Combine × List Predicate}
    (hGroup : group ∈ (build query table known).filter.groups)
    {made : Predicate}
    (hMade : made ∈ group.2) :
    Chunk.AllFit query made.chunks := by
  rcases exists_renders hGroup hMade with
    ⟨source, hSource, -, part, hPart, hRenders⟩
  have hPart := mem_criteria_of_group hSource hPart
  rcases Select.criteria_of_check hCheck hPart with
    ⟨hOperator, hName⟩
  have hParameter : (Chunk.parameter part.param).Fits query :=
    .parameter hPart hName
  have hNever : Chunk.AllFit query Predicate.never.chunks := by
    simp [Predicate.chunks, neverText, Chunk.vocabulary]
  cases hRenders with
  | search hSearch hFound hJoin =>
      have hLabel := isAlias_label hKnown hJoin
      simp only [Join.label] at hLabel
      simp [Predicate.chunks, Chunk.vocabulary, hLabel,
        hParameter]
  | unsearchable => exact hNever
  | comparison hSearch =>
      unfold Scope.condition
      split
      · rename_i left hExpr
        have hOp : (Chunk.operator part.op).Fits query :=
          .operator hPart hOperator
        simp [Predicate.chunks, Chunk.vocabulary, hOp,
          Chunk.allFit_expr (refers_expr? hKnown hExpr),
          hParameter]
      · exact hNever

theorem allFit_filter
    (hCheck : query.check = .ok ())
    (hKnown : ∀ entry ∈ known, entry.1 ∈ query.referenced) :
    Chunk.AllFit query
      (build query table known).filter.chunks := by
  apply Chunk.allFit_between (by simp [Chunk.vocabulary])
  intro part hPart
  rcases List.mem_cons.1 hPart with rfl | hPart
  · cases (build query table known).filter.table <;>
      simp [Filter.tableChunks, neverText, Chunk.vocabulary,
        Chunk.isAlias_itemAlias]
  · rcases List.mem_map.1 hPart with ⟨group, hGroup, rfl⟩
    have hKeyword : " " ++ group.1.keyword ++ " " ∈
        Chunk.vocabulary := by
      cases group.1 <;> decide
    have hParts : Chunk.AllFit query (Chunk.between
        (" " ++ group.1.keyword ++ " ")
          (group.2.map Predicate.chunks)) :=
      Chunk.allFit_between hKeyword
        (List.forall_mem_map.2 fun made hMade =>
          allFit_predicate hCheck hKnown hGroup hMade)
    simp [Filter.groupChunks, hParts, Chunk.vocabulary]

/- Orders are by outputs or by the rank of a search. -/
theorem allFit_order
    (hKnown : ∀ entry ∈ known, entry.1 ∈ query.referenced)
    {key : OrderKey}
    (hKey : key ∈ (build query table known).orders) :
    Chunk.AllFit query key.chunks := by
  have hRank : key ∈ rankOrders
      (build query table known).joins →
        Chunk.AllFit query key.chunks := by
    intro hKey
    rcases exists_search_of_rank hKey with
      ⟨label, source, rfl, hJoin⟩
    have hLabel := isAlias_label hKnown hJoin
    simp only [Join.label] at hLabel
    simp [OrderKey.chunks, Chunk.vocabulary, hLabel]
  have hOutput : key ∈ outputOrders query
      (build query table known).outputs →
        Chunk.AllFit query key.chunks := by
    intro hKey
    rcases List.mem_filterMap.1 hKey with
      ⟨order, -, hFound⟩
    rcases Option.map_eq_some_iff.1 hFound with
      ⟨label, hLookup, rfl⟩
    have hLabel : Word.isAlias label = true :=
      isAlias_column (List.of_mem_zip
        (mem_of_lookup hLookup)).2
    cases order.descending <;>
      simp [OrderKey.chunks, Chunk.vocabulary, hLabel]
  change key ∈ (if query.orders.isEmpty then _ else _) at hKey
  split at hKey
  · exact hRank hKey
  · exact hOutput hKey

/- All of the text of a plan fits the query. -/
theorem fits_build
    (hCheck : query.check = .ok ())
    (hKnown : ∀ entry ∈ known, entry.1 ∈ query.referenced) :
    Chunk.AllFit query (build query table known).chunks := by
  have hOutputs : Chunk.AllFit query (Chunk.between ",\n"
      ((build query table known).outputs.map outputChunks)) :=
    Chunk.allFit_between (by simp [Chunk.vocabulary])
      (List.forall_mem_map.2 fun output hOutput =>
        allFit_output hKnown hOutput)
  have hJoins : Chunk.AllFit query
      ((build query table known).joins.flatMap fun join =>
        .word "\n" :: join.chunks) := by
    intro chunk hChunk
    rcases List.mem_flatMap.1 hChunk with
      ⟨join, hJoin, hMem⟩
    rcases List.mem_cons.1 hMem with rfl | hMem
    · exact .word (by simp [Chunk.vocabulary])
    · exact allFit_joins hKnown hJoin chunk hMem
  have hOrders : Chunk.AllFit query
      (orderChunks (build query table known).orders) := by
    have hKeys : Chunk.AllFit query (Chunk.between ", "
        ((build query table known).orders.map
          OrderKey.chunks)) :=
      Chunk.allFit_between (by simp [Chunk.vocabulary])
        (List.forall_mem_map.2 fun key hKey =>
          allFit_order hKnown hKey)
    unfold orderChunks
    split
    · simp
    · simp [Chunk.vocabulary, hKeys]
  have hLimit : Chunk.AllFit query
      (limitChunks (build query table known).limit) := by
    change Chunk.AllFit query
      (limitChunks (if query.limit = 0 then _ else _))
    split
    · simp [limitChunks]
    · rename_i hSome
      simp [limitChunks, Chunk.vocabulary,
        Chunk.Fits.limit hSome]
  simp [chunks, Chunk.vocabulary, Chunk.isAlias_itemAlias,
    hOutputs, hJoins, allFit_filter hCheck hKnown, hOrders,
    hLimit]

end Plan

end SparseTables
