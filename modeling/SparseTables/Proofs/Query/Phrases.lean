import Mathlib.Data.List.Forall2
import SparseTables.Query.Draft

/-
  This file defines the phrases of the query language.

  A phrase is written as pieces, one a token.  Key words are
  not reserved: a piece that is a name may be any token but a
  comma.

  Main declarations:
    * `Piece`
    * `Piece.Spell`
    * `QueryPhrase`
    * `QueryPhrase.pieces`
    * `QueryPhrase.SpelledBy`
    * `QueryPhrase.draft`
-/

namespace SparseTables

------------------------------------------------------------
-- Pieces
------------------------------------------------------------

/- What a phrase calls for at one token. -/
inductive Piece where
  /- A key word, in any letter case. -/
  | key (word : String)
  | comma
  /- A name of any kind; key words are names as well. -/
  | name (text : String)
deriving DecidableEq

/- Is the token what the phrase calls for? -/
@[simp]
def Piece.Fits (text : String) : Piece → Prop
  | key word => Word.sameLetters word text = true
  | comma => text = ","
  | name called => text = called ∧ text ≠ ","

instance (text : String) :
    (piece : Piece) → Decidable (piece.Fits text)
  | .key word =>
      inferInstanceAs
        (Decidable (Word.sameLetters word text = true))
  | .comma => inferInstanceAs (Decidable (text = ","))
  | .name called =>
      inferInstanceAs (Decidable (text = called ∧ text ≠ ","))

/- Do tokens spell pieces, one after the other? -/
def Piece.Spell : List Piece → List String → Prop :=
  List.Forall₂ fun piece text => piece.Fits text

/- The last token is what the last piece calls for. -/
theorem Piece.spell_concat
    {fewer : List Piece}
    {piece : Piece}
    {texts : List String}
    {text : String} :
    Spell (fewer ++ [piece]) (texts ++ [text]) ↔
      Spell fewer texts ∧ piece.Fits text := by
  unfold Spell
  rw [← List.forall₂_reverse_iff]
  simp [and_comm]

------------------------------------------------------------
-- Phrases
------------------------------------------------------------

/- One thing or more. -/
structure Series (α : Type) where
  before : List α
  last : α

namespace Series

variable {α : Type}

@[simp]
def toList (series : Series α) : List α :=
  series.before ++ [series.last]

/- The pieces of things that are all followed by a piece. -/
@[simp]
def opened
    (between : Piece)
    (pieces : α → List Piece)
    (things : List α) : List Piece :=
  things.flatMap fun thing => pieces thing ++ [between]

/- The pieces of a series, with a piece between things. -/
@[simp]
def pieces
    (between : Piece)
    (pieces : α → List Piece)
    (series : Series α) : List Piece :=
  opened between pieces series.before ++ pieces series.last

end Series

/- A column to order by, and its direction if it has one. -/
structure OrderTerm where
  column : String
  descending? : Option Bool

/- A query as it is written. -/
structure QueryPhrase where
  columns : Series String
  source : String
  criteria : Option (Series Criterion)
  orders : Option (Series OrderTerm)
  limit : Option String

@[simp]
def Piece.ofColumn (column : String) : List Piece :=
  [.name column]

@[simp]
def Criterion.pieces (part : Criterion) : List Piece :=
  [.name part.name, .name part.op, .name part.param]

namespace OrderTerm

@[simp]
def pieces (term : OrderTerm) : List Piece :=
  .name term.column ::
    match term.descending? with
    | none => []
    | some false => [.key "asc"]
    | some true => [.key "desc"]

/- Rows ascend if nothing else is said. -/
@[simp]
def order (term : OrderTerm) : Order :=
  ⟨term.column, term.descending?.getD false⟩

end OrderTerm

namespace QueryPhrase

def selectPieces (columns : Series String) : List Piece :=
  .key "select" :: columns.pieces .comma Piece.ofColumn

@[simp]
def fromPieces (source : String) : List Piece :=
  [.key "from", .name source]

@[simp]
def wherePieces : Option (Series Criterion) → List Piece
  | none => []
  | some criteria =>
      .key "where" ::
        criteria.pieces (.key "and") Criterion.pieces

@[simp]
def orderPieces : Option (Series OrderTerm) → List Piece
  | none => []
  | some orders =>
      .key "order" :: .key "by" ::
        orders.pieces .comma OrderTerm.pieces

@[simp]
def limitPieces : Option String → List Piece
  | none => []
  | some limit => [.key "limit", .name limit]

/- All that a phrase calls for, token by token. -/
@[simp]
def pieces (phrase : QueryPhrase) : List Piece :=
  selectPieces phrase.columns ++ fromPieces phrase.source ++
    wherePieces phrase.criteria ++
    orderPieces phrase.orders ++ limitPieces phrase.limit

/- Are the tokens a way to write the phrase? -/
def SpelledBy
    (phrase : QueryPhrase)
    (tokens : List String) : Prop :=
  Piece.Spell phrase.pieces tokens

/- The parts of the phrase. -/
@[simp]
def draft (phrase : QueryPhrase) : Draft where
  columns := phrase.columns.toList
  source := phrase.source
  conditional := phrase.criteria.isSome
  criteria := phrase.criteria.elim [] Series.toList
  orders := phrase.orders.elim []
    fun orders => orders.toList.map OrderTerm.order
  limit := phrase.limit

end QueryPhrase

------------------------------------------------------------
-- Key words
------------------------------------------------------------

/- Letter case apart, texts are compared letter by letter. -/
theorem Word.sameLetters_iff
    {left right : String} :
    sameLetters left right = true ↔
      left.toList.map Char.toLower =
        right.toList.map Char.toLower := by
  rw [sameLetters, beq_iff_eq, ← String.toList_inj,
    String.toList_map, String.toList_map]

theorem Word.sameLetters_eq_false_iff
    {left right : String} :
    sameLetters left right = false ↔
      left.toList.map Char.toLower ≠
        right.toList.map Char.toLower := by
  rw [← Bool.not_eq_true, sameLetters_iff]

namespace Token

variable {t : Token} {word other : String}

/- A token spells a single key word. -/
theorem spells_of_apart
    (hSpells : t.spells word = true)
    (hApart : other.toList.map Char.toLower ≠
      word.toList.map Char.toLower) :
    t.spells other = false := by
  rw [spells, Word.sameLetters_iff] at hSpells
  rwa [spells, Word.sameLetters_eq_false_iff, ← hSpells]

/- A comma spells no key word. -/
theorem spells_of_comma
    (hComma : t.text = ",")
    (hApart : word.toList.map Char.toLower ≠ [',']) :
    t.spells word = false := by
  rw [spells, hComma, Word.sameLetters_eq_false_iff]
  exact hApart

/- Key words are no commas. -/
theorem isComma_of_apart
    (hSpells : t.spells word = true)
    (hApart : word.toList.map Char.toLower ≠ [',']) :
    t.isComma = false := by
  have hText : t.text ≠ "," := by
    intro hComma
    rw [spells_of_comma hComma hApart] at hSpells
    cases hSpells
  simpa [isComma] using hText

end Token

end SparseTables
