import SparseTables.Proofs.Query.Checking

/-
  This file shows that the parameters of a query that is read
  from a text are the references that a scan of the text
  finds.

  The scan knows nothing of tokens.  But the characters that
  part tokens end every reference, so a text has the
  references of its tokens; a parameter is a reference as a
  whole, and no other token that is read holds an `@`.

  In any text, what the scan finds is as long as it can be,
  so a reference may end in an underscore, and then it is no
  parameter.

  Main declarations:
    * `Token.Splits.references`
    * `Piece.references`
    * `QueryPhrase.references_pieces`
    * `Select.references_eq_params`
    * `Word.IsReference`
    * `Select.references_can_be_used`
    * `Select.references_not_always_parameters`
-/

namespace SparseTables

------------------------------------------------------------
-- References in characters
------------------------------------------------------------

namespace Word

theorem emitReference_append
    (current : Option (List Char))
    (later : List String) :
    emitReference current later =
      emitReference current [] ++ later := by
  unfold emitReference emit
  split <;> simp

theorem isAlpha_of_not_isTail
    {c : Char}
    (hTail : isTail c = false) :
    c.isAlpha = false := by
  simp only [isTail, Char.isAlphanum, Bool.or_eq_false_iff]
    at hTail
  exact hTail.1.1

/- A reference ends before a character that is none of it. -/
theorem referencesFrom_of_end
    (current : Option (List Char))
    {rest : List Char}
    (hEnd : ∀ c ∈ rest.head?, isTail c = false) :
    referencesFrom current rest =
      emitReference current [] ++ referencesFrom none rest := by
  cases rest with
  | nil => simp [referencesFrom, emitReference]
  | cons c rest =>
      have hTail : isTail c = false := hEnd c rfl
      by_cases hAt : c = '@'
      · simp only [referencesFrom, hAt, beq_self_eq_true,
          if_true]
        rw [emitReference_append]
        simp [emitReference]
      · have hAlpha := isAlpha_of_not_isTail hTail
        rcases current with
          _ | _ | ⟨at_, _ | ⟨letter, open_⟩⟩
        · simp [emitReference]
        · simp [referencesFrom, hAt, hTail, emitReference]
        · simp [referencesFrom, hAt, hAlpha, emitReference]
        · simp only [referencesFrom, beq_iff_eq, hAt, hTail,
            Bool.false_eq_true, if_false]
          exact emitReference_append _ _

/- The scan starts anew where no reference can go on. -/
theorem referencesFrom_append
    (current : Option (List Char))
    (run : List Char)
    {rest : List Char}
    (hEnd : ∀ c ∈ rest.head?, isTail c = false) :
    referencesFrom current (run ++ rest) =
      referencesFrom current run ++ referencesFrom none rest := by
  induction run generalizing current with
  | nil => exact referencesFrom_of_end current hEnd
  | cons c run ih =>
      simp only [List.cons_append, referencesFrom]
      split
      · rw [ih, emitReference_append,
          emitReference_append current (referencesFrom _ run),
          List.append_assoc]
      · split
        · exact ih none
        · split <;> exact ih _
        · split
          · exact ih _
          · rw [ih, emitReference_append,
              emitReference_append _ (referencesFrom none run),
              List.append_assoc]

theorem referencesFrom_of_not_mem
    {cs : List Char}
    (hNone : '@' ∉ cs) :
    referencesFrom none cs = [] := by
  induction cs with
  | nil => rfl
  | cons c rest ih =>
      rw [List.mem_cons, not_or] at hNone
      simp [referencesFrom, Ne.symm hNone.1, ih hNone.2]

/- Characters of words extend an open reference. -/
theorem referencesFrom_of_tail
    {tail : List Char}
    (hTail : ∀ c ∈ tail, isTail c = true)
    (letter before : Char)
    (open_ : List Char) :
    referencesFrom (some (letter :: before :: open_)) tail =
      [String.ofList
        ((letter :: before :: open_).reverse ++ tail)] := by
  induction tail generalizing letter before open_ with
  | nil => simp [referencesFrom, emitReference, emit]
  | cons c rest ih =>
      rw [List.forall_mem_cons] at hTail
      have hAt : c ≠ '@' := by
        rintro rfl
        exact absurd hTail.1 (by decide)
      rw [referencesFrom, if_neg (by simpa using hAt)]
      · simp [hTail.1, ih hTail.2]
      · simp

------------------------------------------------------------
-- References in words
------------------------------------------------------------

theorem references_of_not_mem
    {text : String}
    (hNone : '@' ∉ text.toList) :
    references text = [] :=
  referencesFrom_of_not_mem hNone

/- Letters, digits and underscores are no `@`. -/
theorem not_mem_of_isWord
    {text : String}
    (hWord : isWord text = true) :
    '@' ∉ text.toList := by
  unfold isWord isWordList isName at hWord
  intro hMem
  split at hWord
  · cases hWord
  · rename_i c rest hText
    simp only [Bool.and_eq_true, List.all_eq_true] at hWord
    rw [hText, List.mem_cons] at hMem
    rcases hMem with rfl | hMem
    · exact absurd hWord.1.1 (by decide)
    · exact absurd (hWord.1.2 _ hMem) (by decide)

theorem references_of_isWord
    {text : String}
    (hWord : isWord text = true) :
    references text = [] :=
  references_of_not_mem (not_mem_of_isWord hWord)

/- The small form of an `@` is in no operator. -/
theorem not_mem_of_isOperator
    {text : String}
    (hOperator : isOperator text = true) :
    '@' ∉ text.toList := by
  intro hMem
  have hLower : '@' ∈ (lower text).toList := by
    rw [lower, String.toList_map]
    exact List.mem_map.2 ⟨'@', hMem, by decide⟩
  rw [isOperator, List.contains_iff_mem] at hOperator
  generalize lower text = small at hOperator hLower
  revert small
  decide

/- A limit is a sign and digits. -/
theorem not_mem_of_writes
    {text : String}
    (hLimit : ∃ value, Writes text value) :
    '@' ∉ text.toList := by
  obtain ⟨_, sign, digits, hText, hSign, -, hDigits, -⟩ :=
    hLimit
  rw [hText, List.mem_append]
  rintro (hMem | hMem)
  · rcases hSign with rfl | rfl | ⟨rfl, -⟩ <;> simp at hMem
  · exact absurd (hDigits _ hMem) (by decide)

theorem not_mem_of_sameLetters
    {word text : String}
    (hSame : sameLetters word text = true)
    (hWord : '@' ∉ word.toList.map Char.toLower) :
    '@' ∉ text.toList := by
  intro hMem
  rw [sameLetters_iff] at hSame
  rw [hSame] at hWord
  exact hWord (List.mem_map.2 ⟨'@', hMem, by decide⟩)

/- An `@`, a letter, and characters of words. -/
def IsReference (text : String) : Prop :=
  ∃ name, text.toList = '@' :: name ∧ isName name = true

/- A reference is taken whole. -/
theorem IsReference.references_eq
    {text : String}
    (hReference : IsReference text) :
    references text = [text] := by
  rcases hReference with ⟨_ | ⟨letter, tail⟩, hText, hName⟩
  · cases hName
  · simp only [isName, Bool.and_eq_true, List.all_eq_true]
      at hName
    rcases hName with ⟨hLetter, hTail⟩
    have hAt : letter ≠ '@' := by
      rintro rfl
      exact absurd hLetter (by decide)
    rw [← String.toList_inj.1 (String.toList_ofList.trans
      hText.symm), Word.references]
    simp [referencesFrom, emitReference, hAt, hLetter,
      referencesFrom_of_tail hTail]

/- Only an underscore at its end makes a reference useless. -/
theorem IsReference.isParameter_iff
    {text : String}
    (hReference : IsReference text) :
    isParameter text = true ↔
      text.toList.getLast? ≠ some '_' := by
  rcases hReference with ⟨_ | ⟨letter, tail⟩, hText, hName⟩
  · cases hName
  · rw [isParameter, hText, List.getLast?_cons_cons]
    simp [isWordList, hName]

theorem isReference_of_isParameter
    {text : String}
    (hParameter : isParameter text = true) :
    IsReference text := by
  unfold isParameter isWordList at hParameter
  split at hParameter
  · rename_i name hText
    exact ⟨name, hText, (Bool.and_eq_true_iff.1 hParameter).1⟩
  · cases hParameter

theorem references_of_isParameter
    {text : String}
    (hParameter : isParameter text = true) :
    references text = [text] :=
  (isReference_of_isParameter hParameter).references_eq

end Word

------------------------------------------------------------
-- References in tokens
------------------------------------------------------------

/- Where a run of a token ends, a reference ends. -/
theorem Token.isTail_of_not_isInner
    {c : Char}
    (hInner : isInner c = false) :
    Word.isTail c = false := by
  simp only [isInner, Word.isBlank, Bool.and_eq_false_iff,
    Bool.not_eq_false', Bool.or_eq_true, beq_iff_eq,
    bne_eq_false_iff_eq] at hInner
  rcases hInner with (((rfl | rfl) | rfl) | rfl) | rfl <;> rfl

/- A text has the references of its tokens. -/
theorem Token.Splits.references
    {cs : List Char}
    {tokens : List String}
    (hSplits : Splits cs tokens) :
    Word.referencesFrom none cs =
      tokens.flatMap Word.references := by
  induction hSplits with
  | nil => rfl
  | @blank c rest tokens hBlank _ ih =>
      have hAt : c ≠ '@' := by
        rintro rfl
        exact absurd hBlank (by decide)
      simpa [Word.referencesFrom, hAt] using ih
  | comma _ ih =>
      have hNone : Word.references "," = [] := rfl
      simpa [Word.referencesFrom, hNone] using ih
  | run _ _ hEnd _ ih =>
      rw [Word.referencesFrom_append none _
        fun c hMem => isTail_of_not_isInner (hEnd c hMem), ih]
      simp [Word.references]

------------------------------------------------------------
-- References in phrases
------------------------------------------------------------

/- What a phrase refers to at one token. -/
def Piece.references : Piece → List String
  | key _ => []
  | comma => []
  | name text => Word.references text

/- The key words of the query language. -/
def Piece.keyWords : List String :=
  ["select", "from", "where", "and", "order", "by", "asc",
    "desc", "limit"]

/- Tokens refer to what the pieces they spell refer to. -/
theorem Piece.Spell.references
    {pieces : List Piece}
    {texts : List String}
    (hSpell : Spell pieces texts)
    (hKeys : ∀ word, .key word ∈ pieces → word ∈ keyWords) :
    texts.flatMap Word.references =
      pieces.flatMap Piece.references := by
  induction hSpell with
  | nil => rfl
  | @cons piece text pieces texts hFits _ ih =>
      have hFirst :
          Word.references text = piece.references := by
        cases piece with
        | name called => rw [hFits.1, Piece.references]
        | comma => rw [hFits]; rfl
        | key word =>
            refine Word.references_of_not_mem
              (Word.not_mem_of_sameLetters hFits ?_)
            have hWord := hKeys word (List.mem_cons_self ..)
            clear hFits hKeys ih
            revert word
            decide
      rw [List.flatMap_cons, List.flatMap_cons, hFirst,
        ih fun word hMem =>
          hKeys word (List.mem_cons_of_mem _ hMem)]

/- A piece of a series stands between things or in one. -/
theorem Series.mem_pieces
    {α : Type}
    {between piece : Piece}
    {pieces : α → List Piece}
    {series : Series α}
    (hMem : piece ∈ series.pieces between pieces) :
    piece = between ∨ ∃ thing, piece ∈ pieces thing := by
  simp only [Series.pieces, Series.opened, List.mem_append,
    List.mem_flatMap, List.mem_singleton] at hMem
  rcases hMem with ⟨thing, -, hThing | hBetween⟩ | hLast
  · exact .inr ⟨thing, hThing⟩
  · exact .inl hBetween
  · exact .inr ⟨series.last, hLast⟩

namespace QueryPhrase

/- A phrase calls for no other key words. -/
theorem mem_keyWords
    {phrase : QueryPhrase}
    {word : String}
    (hKey : .key word ∈ phrase.pieces) :
    word ∈ Piece.keyWords := by
  rcases phrase with
    ⟨columns, source, criteria, orders, limit⟩
  simp only [pieces, List.mem_append] at hKey
  rcases hKey with
    (((hSelect | hFrom) | hWhere) | hOrder) | hLimit
  · rcases List.mem_cons.1 hSelect with hFirst | hColumns
    · simp_all [Piece.keyWords]
    · rcases Series.mem_pieces hColumns with
        hComma | ⟨column, hColumn⟩
      · cases hComma
      · simp at hColumn
  · simp_all [Piece.keyWords]
  · cases criteria with
    | none => cases hWhere
    | some criteria =>
        rcases List.mem_cons.1 hWhere with hFirst | hCriteria
        · simp_all [Piece.keyWords]
        · rcases Series.mem_pieces hCriteria with
            hAnd | ⟨part, hPart⟩
          · simp_all [Piece.keyWords]
          · simp at hPart
  · cases orders with
    | none => cases hOrder
    | some orders =>
        simp only [orderPieces, List.mem_cons] at hOrder
        rcases hOrder with hFirst | hSecond | hOrders
        · simp_all [Piece.keyWords]
        · simp_all [Piece.keyWords]
        · rcases Series.mem_pieces hOrders with
            hComma | ⟨term, hTerm⟩
          · cases hComma
          · rcases term with ⟨column, _ | _ | _⟩ <;>
              simp_all [Piece.keyWords]
  · cases limit <;> simp_all [Piece.keyWords]

/- The references of a series are those of its things. -/
theorem references_series
    {α : Type}
    {between : Piece}
    {pieces : α → List Piece}
    {names : α → List String}
    {series : Series α}
    (hBetween : between.references = [])
    (hThings : ∀ thing ∈ series.toList,
      (pieces thing).flatMap Piece.references = names thing) :
    (series.pieces between pieces).flatMap Piece.references =
      series.toList.flatMap names := by
  rcases series with ⟨before, last⟩
  simp only [Series.toList, List.forall_mem_append,
    List.forall_mem_singleton] at hThings
  simp only [Series.pieces, Series.opened, Series.toList,
    List.flatMap_append, List.flatMap_assoc,
    List.flatMap_singleton, hThings.2, hBetween,
    List.append_nil]
  congr 1
  exact List.flatMap_congr hThings.1

theorem references_select
    {columns : Series String}
    (hColumns : ∀ part ∈ columns.toList.map Part.column,
      part.Valid) :
    (selectPieces columns).flatMap Piece.references = [] := by
  have hEach : ∀ column ∈ columns.toList,
      (Piece.ofColumn column).flatMap Piece.references =
        [] := by
    intro column hMem
    have hName := hColumns _ (List.mem_map_of_mem hMem)
    simpa [Piece.references] using
      Word.references_of_isWord hName
  rw [selectPieces, List.flatMap_cons,
    references_series rfl hEach]
  simp [Piece.references]

/- A criterion refers to its parameter only. -/
theorem references_criterion
    {part : Criterion}
    (hParts : ∀ piece ∈ part.parts, piece.Valid) :
    part.pieces.flatMap Piece.references = [part.param] := by
  simp only [Criterion.parts, List.forall_mem_cons] at hParts
  rcases hParts with ⟨hName, hOp, hParam, -⟩
  simp [Piece.references, Word.references_of_isWord hName,
    Word.references_of_not_mem
      (Word.not_mem_of_isOperator hOp),
    Word.references_of_isParameter hParam]

theorem references_where
    {criteria : Option (Series Criterion)}
    (hCriteria : ∀ part ∈ criteria.elim [] fun criteria =>
      criteria.toList.flatMap Criterion.parts, part.Valid) :
    (wherePieces criteria).flatMap Piece.references =
      (criteria.elim [] Series.toList).map
        Criterion.param := by
  cases criteria with
  | none => rfl
  | some criteria =>
      rw [Option.elim_some, List.forall_mem_flatMap]
        at hCriteria
      rw [wherePieces, List.flatMap_cons,
        references_series rfl fun part hMem =>
          references_criterion (hCriteria part hMem)]
      simp [Piece.references, List.map_eq_flatMap]

theorem references_order
    {orders : Option (Series OrderTerm)}
    (hOrders : ∀ part ∈ orders.elim [] fun orders =>
      orders.toList.map fun term => Part.column term.column,
      part.Valid) :
    (orderPieces orders).flatMap Piece.references = [] := by
  cases orders with
  | none => rfl
  | some orders =>
      have hEach : ∀ term ∈ orders.toList,
          term.pieces.flatMap Piece.references = [] := by
        intro term hMem
        have hName := hOrders _ (List.mem_map_of_mem hMem)
        rcases term with ⟨column, _ | _ | _⟩ <;>
          simpa [Piece.references] using
            Word.references_of_isWord hName
      rw [orderPieces, List.flatMap_cons, List.flatMap_cons,
        references_series rfl hEach]
      simp [Piece.references]

theorem references_limit
    {limit : Option String}
    (hLimit : ∀ part ∈ limit.toList.map Part.limit,
      part.Valid) :
    (limitPieces limit).flatMap Piece.references = [] := by
  cases limit with
  | none => rfl
  | some text =>
      have hValue := hLimit (.limit text) (by simp)
      simpa [Piece.references] using
        Word.references_of_not_mem
          (Word.not_mem_of_writes hValue)

/-
  The references in the pieces of a phrase are its
  parameters, if its parts are valid.
-/
theorem references_pieces
    {phrase : QueryPhrase}
    (hValid : ∀ part ∈ phrase.parts, part.Valid) :
    phrase.pieces.flatMap Piece.references =
      (phrase.criteria.elim [] Series.toList).map
        Criterion.param := by
  simp only [parts, List.forall_mem_append,
    List.forall_mem_cons] at hValid
  rcases hValid with
    ⟨hColumns, hSource, hCriteria, hOrders, hLimit⟩
  have hFrom : (fromPieces phrase.source).flatMap
      Piece.references = [] := by
    simpa [Piece.references] using
      Word.references_of_isWord hSource
  simp only [pieces, List.flatMap_append,
    references_select hColumns, hFrom,
    references_where hCriteria, references_order hOrders,
    references_limit hLimit, List.append_nil,
    List.nil_append]

end QueryPhrase

------------------------------------------------------------
-- References in queries
------------------------------------------------------------

namespace Select

/-
  A scan of a text that is read as a query finds the
  parameters of its criteria, in order and as often as they
  are written.
-/
theorem references_eq_params
    {text : String}
    {query : Select}
    (hRead : read text = .ok query) :
    Word.references text =
      query.criteria.map Criterion.param := by
  obtain ⟨phrase, hSpelled, hValid, rfl⟩ :=
    exists_phrase_of_read hRead
  calc Word.references text
      = ((Token.scan text).1.map Token.text).flatMap
          Word.references :=
        (Token.splits_scan_iff.2 rfl).references
    _ = phrase.pieces.flatMap Piece.references :=
        Piece.Spell.references hSpelled
          fun _ => QueryPhrase.mem_keyWords
    _ = (phrase.criteria.elim [] Series.toList).map
          Criterion.param :=
        QueryPhrase.references_pieces hValid
    _ = phrase.query.criteria.map Criterion.param := by
        rw [QueryPhrase.criteria_query, List.map_map]
        rfl

/-
  Key words name columns here, an operator is spelled with a
  Kelvin sign, and a parameter comes twice.
-/
def oddlySpelled : String :=
  "select\twhere ,By from t\r\n where by li\u212AE @from_1 " ++
    "and and <> @By\nand id <= @from_1 order by By"

/- What the text says. -/
def plainlySpelled : Select where
  columns := ["where", "By"]
  source := "t"
  groups := [⟨.all, [⟨"by", "like", "@from_1"⟩,
    ⟨"and", "<>", "@By"⟩, ⟨"id", "<=", "@from_1"⟩]⟩]
  orders := [⟨"By", false⟩]
  limit := 0
  params := .empty

theorem references_oddlySpelled :
    read oddlySpelled = .ok plainlySpelled ∧
      Word.references oddlySpelled =
        ["@from_1", "@By", "@from_1"] := by
  have hRead : read oddlySpelled = .ok plainlySpelled := by
    decide +kernel
  exact ⟨hRead, references_eq_params hRead⟩

end Select

------------------------------------------------------------
-- References and parameters
------------------------------------------------------------

namespace Word

/-
  A reference stands in characters where no character of a
  word follows it.
-/
def StandsIn (cs : List Char) (text : String) : Prop :=
  IsReference text ∧ ∃ before after,
    cs = before ++ text.toList ++ after ∧
      ∀ c ∈ after.head?, isTail c = false

theorem StandsIn.prepend
    {cs : List Char}
    {text : String}
    (hStands : StandsIn cs text)
    (front : List Char) :
    StandsIn (front ++ cs) text := by
  rcases hStands with ⟨hReference, before, after, rfl, hEnd⟩
  exact ⟨hReference, front ++ before, after, by simp, hEnd⟩

/-
  What the scan holds open, its last character first: an `@`
  by itself, or a reference that can still go on.
-/
inductive Opens : Option (List Char) → Prop where
  | none : Opens none
  | sign : Opens (some ['@'])
  | name
      {last before : Char}
      {open_ : List Char}
      (hName : IsReference
        (String.ofList (last :: before :: open_).reverse)) :
      Opens (some (last :: before :: open_))

/- The characters that are held open, in their order. -/
def held (current : Option (List Char)) : List Char :=
  (current.getD []).reverse

theorem isName_append
    {name : List Char}
    (hName : isName name = true)
    {c : Char}
    (hTail : isTail c = true) :
    isName (name ++ [c]) = true := by
  cases name with
  | nil => cases hName
  | cons letter rest =>
      simp only [isName, Bool.and_eq_true] at hName
      simp [isName, hName, hTail]

/- A letter behind an `@` begins a reference. -/
theorem Opens.of_letter
    {c : Char}
    (hLetter : c.isAlpha = true) :
    Opens (some [c, '@']) :=
  .name ⟨[c], String.toList_ofList, by simp [isName, hLetter]⟩

theorem Opens.of_tail
    {last before : Char}
    {open_ : List Char}
    (hName : IsReference
      (String.ofList (last :: before :: open_).reverse))
    {c : Char}
    (hTail : isTail c = true) :
    Opens (some (c :: last :: before :: open_)) := by
  rcases hName with ⟨name, hText, hName⟩
  refine .name ⟨name ++ [c], ?_, isName_append hName hTail⟩
  rw [String.toList_ofList] at hText ⊢
  rw [List.reverse_cons, hText, List.cons_append]

/- What is given out stands where it was held. -/
theorem Opens.emits
    {current : Option (List Char)}
    (hOpens : Opens current)
    {rest : List Char}
    (hEnd : ∀ c ∈ rest.head?, isTail c = false) :
    ∀ text ∈ emitReference current [],
      StandsIn (held current ++ rest) text := by
  cases hOpens with
  | none => exact List.forall_mem_nil _
  | sign => exact List.forall_mem_nil _
  | name hName =>
      refine List.forall_mem_singleton.2 ⟨hName, [], rest, ?_,
        hEnd⟩
      rw [String.toList_ofList]
      rfl

/-
  One character ends what is open or makes it longer, so all
  that the scan gives out stands in what it has read.
-/
theorem Opens.scans
    {cs : List Char}
    {current : Option (List Char)}
    (hOpens : Opens current) :
    ∀ text ∈ referencesFrom current cs,
      StandsIn (held current ++ cs) text := by
  induction cs generalizing current with
  | nil => exact hOpens.emits nofun
  | cons c rest ih =>
      have hAnew (text : String)
          (hMem : text ∈ referencesFrom .none rest) :
          StandsIn (held current ++ c :: rest) text := by
        have hStands := (ih .none text hMem).prepend
          (held current ++ [c])
        simpa [held] using hStands
      simp only [referencesFrom]
      split
      · rename_i hAt
        rw [beq_iff_eq] at hAt
        subst hAt
        rw [emitReference_append, List.forall_mem_append]
        exact ⟨hOpens.emits (by simp [isTail]), fun text hMem =>
          (ih .sign text hMem).prepend (held current)⟩
      · cases hOpens with
        | none => exact hAnew
        | sign =>
            simp only
            split
            · rename_i hLetter
              exact ih (.of_letter hLetter)
            · exact hAnew
        | name hName =>
            simp only
            split
            · rename_i hTail
              have hLonger := ih (.of_tail hName hTail)
              simpa [held] using hLonger
            · rename_i hTail
              rw [emitReference_append, List.forall_mem_append]
              exact ⟨(Opens.name hName).emits (by
                simpa using hTail), hAnew⟩

/- A scan finds the references that stand in the text. -/
theorem mem_references_iff
    {text name : String} :
    name ∈ references text ↔ StandsIn text.toList name := by
  constructor
  · exact Opens.none.scans name
  · rintro ⟨hReference, before, after, hText, hEnd⟩
    have hSign : ∀ c ∈ (name.toList ++ after).head?,
        isTail c = false := by
      rcases hReference with ⟨_, hName, -⟩
      rw [hName]
      simp [isTail]
    rw [references, hText, List.append_assoc,
      referencesFrom_append none before hSign,
      referencesFrom_append none name.toList hEnd,
      show referencesFrom none name.toList = [name] from
        hReference.references_eq]
    simp

end Word

namespace Select

/- A value is found under the reference it is bound to. -/
theorem get?_bind_of_isReference
    (query : Select)
    {name : String}
    (hReference : Word.IsReference name)
    (value : Scalar) :
    (query.bind name value).params.get? name = some value := by
  rcases hReference with ⟨rest, hText, -⟩
  have hSigned : paramName name = name := by
    rw [paramName, hText]
    rfl
  rw [bind, hSigned, NameMap.get?_insert, if_pos rfl]

/-
  A reference that a scan of a text finds is a parameter
  unless it ends in an underscore.  Any value can be bound to
  it, and an accepted query takes a criterion with it if it
  is a parameter.
-/
theorem references_can_be_used
    {text name : String}
    (hMem : name ∈ Word.references text) :
    (Word.isParameter name = true ↔
      name.toList.getLast? ≠ some '_') ∧
    ∀ query : Select, query.check = .ok () →
      ∀ column op value, Word.isWord column = true →
        Word.isOperator op = true →
          (query.bind name value).params.get? name =
              some value ∧
            (((query.filter ⟨column, op, name⟩).bind name
                value).check = .ok () ↔
              name.toList.getLast? ≠ some '_') := by
  have hReference := (Word.mem_references_iff.1 hMem).1
  have hParameter := hReference.isParameter_iff
  refine ⟨hParameter, ?_⟩
  intro query hCheck column op value hColumn hOp
  refine ⟨query.get?_bind_of_isReference hReference value, ?_⟩
  rw [check_filter_bind_iff hCheck, ← hParameter]
  simp only [Check.criterion, Check.column, Check.operator,
    Check.parameter, Except.then_eq_ok_iff,
    Check.that_eq_ok_iff, hColumn, hOp, true_and]

/-
  Of the names that begin with an `@` here, two begin with
  no letter, and one ends where the next begins.
-/
def closelyWritten : String :=
  "a = @1st AND b = @_c AND d=@e_2@F9, @g-h"

theorem references_can_be_used_closelyWritten :
    "@e_2" ∈ Word.references closelyWritten ∧
      Word.isParameter "@e_2" = true ∧
      ((((on "t").column "d").filter ⟨"d", "=", "@e_2"⟩).bind
        "@e_2" (.text "x")).check = .ok () := by
  have hMem : "@e_2" ∈ Word.references closelyWritten := by
    decide +kernel
  have hLast : "@e_2".toList.getLast? ≠ some '_' := by decide
  have hCheck : ((on "t").column "d").check = .ok () := by
    decide +kernel
  rcases references_can_be_used hMem with ⟨hParameter, hUsed⟩
  rcases hUsed _ hCheck "d" "=" (.text "x") (by decide)
    (by decide +kernel) with ⟨-, hAccepted⟩
  exact ⟨hMem, hParameter.2 hLast, hAccepted.2 hLast⟩

/- A reference takes the underscores that end it. -/
theorem references_not_always_parameters :
    ¬ ∀ text, ∀ name ∈ Word.references text,
      Word.isParameter name = true := by
  intro hAll
  have hMem : "@b_" ∈ Word.references "a = @b_ AND c = @d" := by
    decide +kernel
  exact absurd (hAll _ _ hMem) (by decide)

end Select

end SparseTables
