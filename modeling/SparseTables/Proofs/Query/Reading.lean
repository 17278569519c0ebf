import Mathlib.Data.List.Induction
import SparseTables.Proofs.Query.Phrases

/-
  This file shows that a draft is read from some tokens if
  and only if they spell a phrase.

  Reading keeps an invariant: at every stage the tokens so
  far spell the pieces of a phrase that has been begun, and
  the draft holds its parts.  A step of reading adds a piece,
  and every piece of what has been begun was added by such a
  step.  Both are shown by cases on what has been begun, and
  lifted to runs by induction on the tokens.

  Main declarations:
    * `Begun`
    * `Begun.next`
    * `Begun.before`
    * `Draft.ofTokens_ok_iff`
-/

namespace SparseTables

------------------------------------------------------------
-- Phrases that have been begun
------------------------------------------------------------

/- The stage at which a phrase is complete. -/
def QueryPhrase.stage (phrase : QueryPhrase) : Stage :=
  match phrase.limit, phrase.orders, phrase.criteria with
  | some _, _, _ => .limited
  | none, some ⟨_, _, some _⟩, _ => .directed
  | none, some ⟨_, _, none⟩, _ => .ordered
  | none, none, some _ => .condition
  | none, none, none => .table

open QueryPhrase Series in
/-
  What has been read at a stage: the pieces that the tokens
  spelled, and the draft with their parts.
-/
inductive Begun : Stage → List Piece → Draft → Prop where
  | start : Begun .start [] .empty
  | column (before : List String) :
      Begun .column
        (.key "select" :: opened .comma Piece.ofColumn before)
        { Draft.empty with columns := before }
  | selected (columns : Series String) :
      Begun .selected (selectPieces columns)
        { Draft.empty with columns := columns.toList }
  | source (columns : Series String) :
      Begun .source (selectPieces columns ++ [.key "from"])
        { Draft.empty with columns := columns.toList }
  | criterion
      (columns : Series String)
      (source : String)
      (before : List Criterion) :
      Begun .criterion
        (pieces ⟨columns, source, none, none, none⟩ ++
          .key "where" ::
            opened (.key "and") Criterion.pieces before)
        { draft ⟨columns, source, none, none, none⟩ with
          conditional := decide (before ≠ [])
          criteria := before }
  | operator
      (columns : Series String)
      (source : String)
      (before : List Criterion)
      (name : String) :
      Begun .operator
        (pieces ⟨columns, source, none, none, none⟩ ++
          .key "where" ::
            (opened (.key "and") Criterion.pieces before ++
              [.name name]))
        { draft ⟨columns, source, none, none, none⟩ with
          conditional := true
          criteria := before ++ [⟨name, "", ""⟩] }
  | parameter
      (columns : Series String)
      (source : String)
      (before : List Criterion)
      (name op : String) :
      Begun .parameter
        (pieces ⟨columns, source, none, none, none⟩ ++
          .key "where" ::
            (opened (.key "and") Criterion.pieces before ++
              [.name name, .name op]))
        { draft ⟨columns, source, none, none, none⟩ with
          conditional := true
          criteria := before ++ [⟨name, op, ""⟩] }
  | orderBy
      (columns : Series String)
      (source : String)
      (criteria : Option (Series Criterion)) :
      Begun .orderBy
        (pieces ⟨columns, source, criteria, none, none⟩ ++
          [.key "order"])
        (draft ⟨columns, source, criteria, none, none⟩)
  | orderColumn
      (columns : Series String)
      (source : String)
      (criteria : Option (Series Criterion))
      (before : List OrderTerm) :
      Begun .orderColumn
        (pieces ⟨columns, source, criteria, none, none⟩ ++
          .key "order" :: .key "by" ::
            opened .comma OrderTerm.pieces before)
        { draft ⟨columns, source, criteria, none, none⟩ with
          orders := before.map OrderTerm.order }
  | limit
      (columns : Series String)
      (source : String)
      (criteria : Option (Series Criterion))
      (orders : Option (Series OrderTerm)) :
      Begun .limit
        (pieces ⟨columns, source, criteria, orders, none⟩ ++
          [.key "limit"])
        (draft ⟨columns, source, criteria, orders, none⟩)
  | complete (phrase : QueryPhrase) :
      Begun phrase.stage phrase.pieces phrase.draft

theorem Draft.changeLast_append
    {α : Type}
    (change : α → α)
    (before : List α)
    (last : α) :
    changeLast change (before ++ [last]) =
      before ++ [change last] := by
  induction before with
  | nil => rfl
  | cons first rest ih =>
      cases rest with
      | nil => rfl
      | cons second rest =>
          simpa [changeLast] using ih

/- A name may be any token but a comma. -/
theorem Stage.name_iff
    {stage later : Stage}
    {t : Token} :
    stage.name t = some later ↔
      t.text ≠ "," ∧ stage = later := by
  simp [Stage.name, Token.isComma]

------------------------------------------------------------
-- Steps forward
------------------------------------------------------------

namespace Begun

variable {stage later : Stage} {pieces : List Piece}
variable {draft : Draft} {t : Token}

theorem fits_of_name
    (hName : stage.name t = some later) :
    Piece.Fits t.text (.name t.text) ∧ later = stage := by
  rw [Stage.name_iff] at hName
  exact ⟨⟨rfl, hName.1⟩, hName.2.symm⟩

theorem next_of_afterWhere
    {columns : Series String}
    {source : String}
    {criteria : Option (Series Criterion)}
    (hNext : Stage.afterWhere t = some later) :
    ∃ piece : Piece, piece.Fits t.text ∧
      Begun later
        (QueryPhrase.pieces
            ⟨columns, source, criteria, none, none⟩ ++
          [piece])
        (QueryPhrase.draft
          ⟨columns, source, criteria, none, none⟩) := by
  unfold Stage.afterWhere at hNext
  split at hNext
  · rename_i hKey
    cases hNext
    exact ⟨.key "order", hKey, .orderBy ..⟩
  · split at hNext
    · rename_i hKey
      cases hNext
      exact ⟨.key "limit", hKey, .limit ..⟩
    · cases hNext

theorem next_of_afterOrder
    {columns : Series String}
    {source : String}
    {criteria : Option (Series Criterion)}
    {orders : Series OrderTerm}
    (hNext : Stage.afterOrder t = some later) :
    ∃ piece : Piece, piece.Fits t.text ∧
      Begun later
        (QueryPhrase.pieces
            ⟨columns, source, criteria, some orders, none⟩ ++
          [piece])
        (QueryPhrase.draft
          ⟨columns, source, criteria, some orders, none⟩) := by
  unfold Stage.afterOrder at hNext
  split at hNext
  · rename_i hComma
    cases hNext
    refine ⟨.comma, by simpa [Token.isComma] using hComma, ?_⟩
    simpa using
      Begun.orderColumn columns source criteria orders.toList
  · split at hNext
    · rename_i hKey
      cases hNext
      exact ⟨.key "limit", hKey, .limit ..⟩
    · cases hNext

/- Reading a token goes on from a complete phrase. -/
theorem next_of_complete
    {phrase : QueryPhrase}
    (hNext : phrase.stage.next t = some later) :
    ∃ piece : Piece, piece.Fits t.text ∧
      Begun later (phrase.pieces ++ [piece])
        (phrase.draft.record phrase.stage t) := by
  rcases phrase with
    ⟨columns, source, criteria, orders, limit⟩
  cases limit with
  | some limit => cases hNext
  | none =>
  cases orders with
  | none =>
      cases criteria with
      | none =>
          simp only [QueryPhrase.stage, Stage.next] at hNext
          split at hNext
          · rename_i hKey
            cases hNext
            refine ⟨.key "where", hKey, ?_⟩
            simpa [QueryPhrase.stage, Draft.record] using
              Begun.criterion columns source []
          · exact next_of_afterWhere hNext
      | some criteria =>
          simp only [QueryPhrase.stage, Stage.next] at hNext
          split at hNext
          · rename_i hKey
            cases hNext
            refine ⟨.key "and", hKey, ?_⟩
            simpa [QueryPhrase.stage, Draft.record] using
              Begun.criterion columns source criteria.toList
          · exact next_of_afterWhere hNext
  | some orders =>
      rcases orders with ⟨before, column, _ | descending⟩
      · simp only [QueryPhrase.stage, Stage.next] at hNext
        split at hNext
        · rename_i hKey
          cases hNext
          by_cases hDesc : t.spells "desc" = true
          · refine ⟨.key "desc", hDesc, ?_⟩
            simpa [QueryPhrase.stage, Draft.record, hDesc,
              Draft.changeLast_append] using
              Begun.complete ⟨columns, source, criteria,
                some ⟨before, column, some true⟩, none⟩
          · have hAsc : t.spells "asc" = true := by
              simpa [hDesc] using hKey
            refine ⟨.key "asc", hAsc, ?_⟩
            simpa [QueryPhrase.stage, Draft.record, hDesc] using
              Begun.complete ⟨columns, source, criteria,
                some ⟨before, column, some false⟩, none⟩
        · rename_i hKey
          have hDesc : t.spells "desc" = false := by
            simp only [Bool.or_eq_true, not_or] at hKey
            simpa using hKey.2
          rw [QueryPhrase.stage, Draft.record, hDesc]
          exact next_of_afterOrder hNext
      · exact next_of_afterOrder hNext

/- Reading a token adds a piece to what has been begun. -/
theorem next
    (hBegun : Begun stage pieces draft)
    (hNext : stage.next t = some later) :
    ∃ piece : Piece, piece.Fits t.text ∧
      Begun later (pieces ++ [piece])
        (draft.record stage t) := by
  cases hBegun with
  | complete phrase => exact next_of_complete hNext
  | start =>
      simp only [Stage.next] at hNext
      split at hNext
      · rename_i hKey
        cases hNext
        exact ⟨.key "select", hKey, .column []⟩
      · cases hNext
  | column before =>
      obtain ⟨hFits, rfl⟩ := fits_of_name hNext
      exact ⟨_, hFits, .selected ⟨before, t.text⟩⟩
  | selected columns =>
      simp only [Stage.next] at hNext
      split at hNext
      · rename_i hComma
        cases hNext
        have hFits : t.text = "," := by
          simpa [Token.isComma] using hComma
        refine ⟨.comma, hFits, ?_⟩
        simpa [QueryPhrase.selectPieces, Draft.record] using
          Begun.column columns.toList
      · split at hNext
        · rename_i hKey
          cases hNext
          exact ⟨.key "from", hKey, .source columns⟩
        · cases hNext
  | source columns =>
      obtain ⟨hFits, rfl⟩ := fits_of_name hNext
      refine ⟨_, hFits, ?_⟩
      simpa [Draft.empty, Draft.record, QueryPhrase.stage] using
        Begun.complete ⟨columns, t.text, none, none, none⟩
  | criterion columns source before =>
      obtain ⟨hFits, rfl⟩ := fits_of_name hNext
      refine ⟨_, hFits, ?_⟩
      simpa [Draft.record] using
        Begun.operator columns source before t.text
  | operator columns source before name =>
      obtain ⟨hFits, rfl⟩ := fits_of_name hNext
      refine ⟨_, hFits, ?_⟩
      simpa [Draft.record, Draft.changeLast_append] using
        Begun.parameter columns source before name t.text
  | parameter columns source before name op =>
      obtain ⟨hFits, rfl⟩ := fits_of_name hNext
      refine ⟨_, hFits, ?_⟩
      simpa [Draft.record, Draft.changeLast_append,
        QueryPhrase.stage] using
        Begun.complete ⟨columns, source,
          some ⟨before, name, op, t.text⟩, none, none⟩
  | orderBy columns source criteria =>
      simp only [Stage.next] at hNext
      split at hNext
      · rename_i hKey
        cases hNext
        refine ⟨.key "by", hKey, ?_⟩
        simpa [Draft.record] using
          Begun.orderColumn columns source criteria []
      · cases hNext
  | orderColumn columns source criteria before =>
      obtain ⟨hFits, rfl⟩ := fits_of_name hNext
      refine ⟨_, hFits, ?_⟩
      simpa [Draft.record, QueryPhrase.stage] using
        Begun.complete ⟨columns, source, criteria,
          some ⟨before, t.text, none⟩, none⟩
  | limit columns source criteria orders =>
      obtain ⟨hFits, rfl⟩ := fits_of_name hNext
      refine ⟨_, hFits, ?_⟩
      simpa [Draft.record, QueryPhrase.stage] using
        Begun.complete
          ⟨columns, source, criteria, orders, some t.text⟩

------------------------------------------------------------
-- Steps back
------------------------------------------------------------

/-
  The last piece of what has been begun, before which less
  had been: reading a token that fits leads from there.
-/
def HasLast
    (stage : Stage)
    (pieces : List Piece)
    (draft : Draft) : Prop :=
  ∃ earlier fewer shorter, ∃ piece : Piece,
    pieces = fewer ++ [piece] ∧
      Begun earlier fewer shorter ∧
      ∀ t : Token, piece.Fits t.text →
        earlier.next t = some stage ∧
          shorter.record earlier t = draft

theorem hasLast
    {fewer : List Piece}
    {earlier : Stage}
    {shorter : Draft}
    (hBegun : Begun earlier fewer shorter)
    (piece : Piece)
    (hPieces : pieces = fewer ++ [piece])
    (hReads : ∀ t : Token, piece.Fits t.text →
      earlier.next t = some stage ∧
        shorter.record earlier t = draft) :
    HasLast stage pieces draft :=
  ⟨earlier, fewer, shorter, piece, hPieces, hBegun, hReads⟩

/- Any name that has to come may come. -/
theorem next_name
    {name : String}
    (hFits : Piece.Fits t.text (.name name)) :
    stage.name t = some stage ∧ t.text = name :=
  ⟨Stage.name_iff.2 ⟨hFits.2, rfl⟩, hFits.1⟩

/- A clause may follow where no limit has been read. -/
theorem next_limit
    {columns : Series String}
    {source : String}
    {criteria : Option (Series Criterion)}
    {orders : Option (Series OrderTerm)}
    (hFits : t.spells "limit" = true) :
    (QueryPhrase.stage
        ⟨columns, source, criteria, orders, none⟩).next t =
      some .limit := by
  have hComma : t.isComma = false :=
    Token.isComma_of_apart hFits (by decide)
  have hWhere : t.spells "where" = false :=
    Token.spells_of_apart hFits (by decide)
  have hAnd : t.spells "and" = false :=
    Token.spells_of_apart hFits (by decide)
  have hOrder : t.spells "order" = false :=
    Token.spells_of_apart hFits (by decide)
  have hAsc : t.spells "asc" = false :=
    Token.spells_of_apart hFits (by decide)
  have hDesc : t.spells "desc" = false :=
    Token.spells_of_apart hFits (by decide)
  rcases orders with _ | ⟨before, column, _ | descending⟩
  · cases criteria <;>
      simp [QueryPhrase.stage, Stage.next, Stage.afterWhere,
        hFits, hWhere, hAnd, hOrder]
  · simp [QueryPhrase.stage, Stage.next, Stage.afterOrder,
      hFits, hAsc, hDesc, hComma]
  · simp [QueryPhrase.stage, Stage.next, Stage.afterOrder,
      hFits, hComma]

theorem next_order
    {columns : Series String}
    {source : String}
    {criteria : Option (Series Criterion)}
    (hFits : t.spells "order" = true) :
    (QueryPhrase.stage
        ⟨columns, source, criteria, none, none⟩).next t =
      some .orderBy := by
  have hWhere : t.spells "where" = false :=
    Token.spells_of_apart hFits (by decide)
  have hAnd : t.spells "and" = false :=
    Token.spells_of_apart hFits (by decide)
  cases criteria <;>
    simp [QueryPhrase.stage, Stage.next, Stage.afterWhere,
      hFits, hWhere, hAnd]

theorem next_comma
    {columns : Series String}
    {source : String}
    {criteria : Option (Series Criterion)}
    {orders : Series OrderTerm}
    (hFits : t.text = ",") :
    (QueryPhrase.stage
        ⟨columns, source, criteria, some orders, none⟩).next t =
      some .orderColumn := by
  have hAsc : t.spells "asc" = false :=
    Token.spells_of_comma hFits (by decide)
  have hDesc : t.spells "desc" = false :=
    Token.spells_of_comma hFits (by decide)
  rcases orders with ⟨before, column, _ | descending⟩ <;>
    simp [QueryPhrase.stage, Stage.next, Stage.afterOrder,
      Token.isComma, hFits, hAsc, hDesc]

/- Nothing is written down at a complete phrase. -/
theorem record_complete
    (phrase : QueryPhrase)
    (draft : Draft)
    (hDesc : t.spells "desc" = false) :
    draft.record phrase.stage t = draft := by
  rcases phrase with ⟨_, _, _ | _, _ | ⟨_, _, _ | _⟩, _ | _⟩ <;>
    simp [QueryPhrase.stage, Draft.record, hDesc]

theorem before_complete
    (phrase : QueryPhrase) :
    HasLast phrase.stage phrase.pieces phrase.draft := by
  rcases phrase with
    ⟨columns, source, criteria, orders, limit⟩
  cases limit with
  | some limit =>
      refine hasLast (.limit columns source criteria orders)
        (.name limit) (by simp) ?_
      intro t hFits
      refine ⟨(next_name hFits).1, ?_⟩
      simp [Draft.record, hFits.1]
  | none =>
  cases orders with
  | some orders =>
      rcases orders with ⟨before, column, _ | _ | _⟩
      · refine hasLast
          (.orderColumn columns source criteria before)
          (.name column) (by simp) ?_
        intro t hFits
        refine ⟨(next_name hFits).1, ?_⟩
        simp [Draft.record, hFits.1]
      · refine hasLast
          (.complete ⟨columns, source, criteria,
            some ⟨before, column, none⟩, none⟩)
          (.key "asc") (by simp) ?_
        intro t hFits
        have hAsc : t.spells "asc" = true := hFits
        have hDesc : t.spells "desc" = false :=
          Token.spells_of_apart hAsc (by decide)
        simp [QueryPhrase.stage, Stage.next, Draft.record, hAsc,
          hDesc]
      · refine hasLast
          (.complete ⟨columns, source, criteria,
            some ⟨before, column, none⟩, none⟩)
          (.key "desc") (by simp) ?_
        intro t hFits
        have hDesc : t.spells "desc" = true := hFits
        simp [QueryPhrase.stage, Stage.next, Draft.record,
          hDesc, Draft.changeLast_append]
  | none =>
  cases criteria with
  | some criteria =>
      rcases criteria with ⟨before, name, op, param⟩
      refine hasLast (.parameter columns source before name op)
        (.name param) (by simp) ?_
      intro t hFits
      refine ⟨(next_name hFits).1, ?_⟩
      simp [Draft.record, hFits.1, Draft.changeLast_append]
  | none =>
      refine hasLast (.source columns)
        (.name source) (by simp) ?_
      intro t hFits
      refine ⟨(next_name hFits).1, ?_⟩
      simp [Draft.record, hFits.1, Draft.empty]

/- What has been begun is empty or was led to by a token. -/
theorem before
    (hBegun : Begun stage pieces draft) :
    (stage = .start ∧ pieces = [] ∧ draft = .empty) ∨
      HasLast stage pieces draft := by
  cases hBegun with
  | start => exact .inl ⟨rfl, rfl, rfl⟩
  | complete phrase => exact .inr (before_complete phrase)
  | column before =>
      right
      rcases List.eq_nil_or_concat before with
        rfl | ⟨init, last, rfl⟩
      · refine hasLast .start (.key "select") rfl ?_
        intro t hFits
        have hKey : t.spells "select" = true := hFits
        simp [Stage.next, hKey, Draft.record, Draft.empty]
      · refine hasLast (.selected ⟨init, last⟩)
          .comma
          (by simp [QueryPhrase.selectPieces]) ?_
        intro t hFits
        have hComma : t.isComma = true := by
          simpa [Token.isComma] using hFits
        simp [Stage.next, hComma, Draft.record]
  | selected columns =>
      right
      refine hasLast (.column columns.before)
        (.name columns.last)
        (by simp [QueryPhrase.selectPieces]) ?_
      intro t hFits
      refine ⟨(next_name hFits).1, ?_⟩
      simp [Draft.record, hFits.1]
  | source columns =>
      right
      refine hasLast (.selected columns)
        (.key "from") rfl ?_
      intro t hFits
      have hKey : t.spells "from" = true := hFits
      have hComma : t.isComma = false :=
        Token.isComma_of_apart hKey (by decide)
      simp [Stage.next, hKey, hComma, Draft.record]
  | criterion columns source before =>
      right
      rcases List.eq_nil_or_concat before with
        rfl | ⟨init, last, rfl⟩
      · refine hasLast
          (.complete ⟨columns, source, none, none, none⟩)
          (.key "where") (by simp) ?_
        intro t hFits
        have hKey : t.spells "where" = true := hFits
        simp [QueryPhrase.stage, Stage.next, hKey, Draft.record]
      · refine hasLast
          (.complete ⟨columns, source, some ⟨init, last⟩,
            none, none⟩)
          (.key "and") (by simp) ?_
        intro t hFits
        have hKey : t.spells "and" = true := hFits
        simp [QueryPhrase.stage, Stage.next, hKey, Draft.record]
  | operator columns source before name =>
      right
      refine hasLast (.criterion columns source before)
        (.name name) (by simp) ?_
      intro t hFits
      refine ⟨(next_name hFits).1, ?_⟩
      simp [Draft.record, hFits.1]
  | parameter columns source before name op =>
      right
      refine hasLast (.operator columns source before name)
        (.name op) (by simp) ?_
      intro t hFits
      refine ⟨(next_name hFits).1, ?_⟩
      simp [Draft.record, hFits.1, Draft.changeLast_append]
  | orderBy columns source criteria =>
      right
      refine hasLast
        (.complete ⟨columns, source, criteria, none, none⟩)
        (.key "order") rfl ?_
      intro t hFits
      exact ⟨next_order hFits, record_complete _ _
        (Token.spells_of_apart hFits (by decide))⟩
  | orderColumn columns source criteria before =>
      right
      rcases List.eq_nil_or_concat before with
        rfl | ⟨init, last, rfl⟩
      · refine hasLast (.orderBy columns source criteria)
          (.key "by") (by simp) ?_
        intro t hFits
        have hKey : t.spells "by" = true := hFits
        simp [Stage.next, hKey, Draft.record]
      · refine hasLast
          (.complete ⟨columns, source, criteria,
            some ⟨init, last⟩, none⟩)
          .comma (by simp) ?_
        intro t hFits
        refine ⟨next_comma hFits, ?_⟩
        rw [record_complete]
        · simp
        · exact Token.spells_of_comma hFits (by decide)
  | limit columns source criteria orders =>
      right
      refine hasLast
        (.complete ⟨columns, source, criteria, orders, none⟩)
        (.key "limit") rfl ?_
      intro t hFits
      exact ⟨next_limit hFits, record_complete _ _
        (Token.spells_of_apart hFits (by decide))⟩

/- Only a complete phrase may end. -/
theorem complete_of_mayEnd
    (hBegun : Begun stage pieces draft)
    (hEnd : stage.mayEnd = true) :
    ∃ phrase : QueryPhrase,
      pieces = phrase.pieces ∧ draft = phrase.draft := by
  cases hBegun with
  | complete phrase => exact ⟨phrase, rfl, rfl⟩
  | _ => cases hEnd

theorem mayEnd_complete
    (phrase : QueryPhrase) :
    phrase.stage.mayEnd = true := by
  rcases phrase with ⟨_, _, _ | _, _ | ⟨_, _, _ | _⟩, _ | _⟩ <;>
    rfl

end Begun

------------------------------------------------------------
-- Whole phrases
------------------------------------------------------------

namespace Draft

variable {tokens : List Token} {stage : Stage}
variable {pieces : List Piece} {draft result : Draft}
variable {finish : Position}

/- What is read to the end completes a phrase. -/
theorem exists_phrase
    (hBegun : Begun stage pieces draft)
    (hRead : readFrom draft stage finish tokens =
      .ok result) :
    ∃ (phrase : QueryPhrase) (more : List Piece),
      phrase.pieces = pieces ++ more ∧
        Piece.Spell more (tokens.map Token.text) ∧
        result = phrase.draft := by
  induction tokens generalizing stage pieces draft with
  | nil =>
      rw [readFrom] at hRead
      split at hRead
      · rename_i hEnd
        obtain ⟨phrase, rfl, rfl⟩ :=
          hBegun.complete_of_mayEnd hEnd
        cases hRead
        exact ⟨phrase, [], by simp, .nil, rfl⟩
      · cases hRead
  | cons t rest ih =>
      rw [readFrom] at hRead
      split at hRead
      · rename_i later hNext
        obtain ⟨piece, hFits, hLater⟩ := hBegun.next hNext
        obtain ⟨phrase, more, hPieces, hMore, hResult⟩ :=
          ih hLater hRead
        exact ⟨phrase, piece :: more, by simpa using hPieces,
          .cons hFits hMore, hResult⟩
      · cases hRead

/- What has been begun is read from tokens that spell it. -/
theorem readFrom_begun
    (finish : Position)
    (hBegun : Begun stage pieces draft)
    (hSpell : Piece.Spell pieces (tokens.map Token.text))
    (rest : List Token) :
    readFrom .empty .start finish (tokens ++ rest) =
      readFrom draft stage finish rest := by
  induction tokens using List.reverseRecOn
    generalizing stage pieces draft rest with
  | nil =>
      have hNone : pieces = [] :=
        List.forall₂_nil_right_iff.1 hSpell
      rcases hBegun.before with
        ⟨rfl, _, rfl⟩ | ⟨_, _, _, _, hLast, _⟩
      · rfl
      · simp [hLast] at hNone
  | append_singleton init t ih =>
      rcases hBegun.before with
        ⟨_, rfl, _⟩ |
          ⟨earlier, fewer, shorter, piece, rfl, hBefore, hReads⟩
      · simp [Piece.Spell] at hSpell
      · rw [List.map_append, List.map_singleton,
          Piece.spell_concat] at hSpell
        obtain ⟨hNext, hRecord⟩ := hReads t hSpell.2
        rw [List.append_assoc, ih hBefore hSpell.1]
        simp [readFrom, hNext, hRecord]

/- A draft is read if and only if a phrase is spelled. -/
theorem ofTokens_ok_iff :
    ofTokens tokens finish = .ok result ↔
      ∃ phrase : QueryPhrase,
        phrase.SpelledBy (tokens.map Token.text) ∧
          result = phrase.draft := by
  constructor
  · intro hRead
    obtain ⟨phrase, more, hPieces, hMore, hResult⟩ :=
      exists_phrase .start hRead
    rw [List.nil_append] at hPieces
    rw [← hPieces] at hMore
    exact ⟨phrase, hMore, hResult⟩
  · rintro ⟨phrase, hSpelled, rfl⟩
    have hBegun := Begun.complete phrase
    have hRead := readFrom_begun finish hBegun hSpelled []
    rw [List.append_nil] at hRead
    rw [ofTokens, hRead, readFrom,
      if_pos (Begun.mayEnd_complete phrase)]

end Draft

end SparseTables
