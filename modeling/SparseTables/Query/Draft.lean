import SparseTables.Query.Check

/-
  This file reads query text.

  The tokens are read into a draft, which holds them part by
  part; a token that cannot come at its stage is an error at
  its place.  Only a complete draft is checked, part by part
  from left to right, and becomes a query.

  Key definitions include:
    * `Draft`
    * `Draft.ofTokens`
    * `Draft.check`
    * `Select.read`
-/

namespace SparseTables

------------------------------------------------------------
-- Drafts
------------------------------------------------------------

/- The parts of a query as they are written. -/
structure Draft where
  columns : List String
  source : String
  /- Is there a `WHERE`? -/
  conditional : Bool
  criteria : List Criterion
  orders : List Order
  limit : Option String
deriving DecidableEq

namespace Draft

def empty : Draft where
  columns := []
  source := ""
  conditional := false
  criteria := []
  orders := []
  limit := none

/- Change the last element of a list. -/
def changeLast {α : Type} (change : α → α) :
    List α → List α
  | [] => []
  | [last] => [change last]
  | first :: rest => first :: changeLast change rest

/- Write down a token that was read at a stage. -/
def record (draft : Draft) (stage : Stage) (t : Token) : Draft :=
  match stage with
  | .column =>
      { draft with columns := draft.columns ++ [t.text] }
  | .source => { draft with source := t.text }
  | .criterion =>
      { draft with
        conditional := true
        criteria := draft.criteria ++ [⟨t.text, "", ""⟩] }
  | .operator =>
      { draft with
        criteria := changeLast
          (fun part => { part with op := t.text })
          draft.criteria }
  | .parameter =>
      { draft with
        criteria := changeLast
          (fun part => { part with param := t.text })
          draft.criteria }
  | .orderColumn =>
      { draft with orders := draft.orders ++ [⟨t.text, false⟩] }
  | .ordered =>
      if t.spells "desc" then
        { draft with
          orders := changeLast
            (fun order => { order with descending := true })
            draft.orders }
      else
        draft
  | .limit => { draft with limit := some t.text }
  | _ => draft

/- Read the tokens that remain. -/
def readFrom
    (draft : Draft)
    (stage : Stage)
    (finish : Position) :
    List Token → Except ParseFault Draft
  | [] =>
      if stage.mayEnd then
        .ok draft
      else
        .error (.unexpected stage finish)
  | t :: rest =>
      match stage.next t with
      | some later =>
          readFrom (draft.record stage t) later finish rest
      | none => .error (.unexpected stage t.position)

/- Read tokens whose text ends at a place. -/
def ofTokens
    (tokens : List Token)
    (finish : Position) : Except ParseFault Draft :=
  readFrom empty .start finish tokens

------------------------------------------------------------
-- From drafts to queries
------------------------------------------------------------

/-
  The value of a limit: digits behind an optional sign,
  within 64 bits and not negative.
-/
def limitValue? (text : String) : Option Nat :=
  let (negative, digits) :=
    match text.toList with
    | '-' :: rest => (true, rest)
    | '+' :: rest => (false, rest)
    | cs => (false, cs)
  let value : Nat := digits.foldl
    (fun n c => 10 * n + (c.toNat - 48)) 0
  if digits.isEmpty || !digits.all Char.isDigit then
    none
  else if negative && value != 0 then
    none
  else if Bounds.isSigned64 value then
    some value
  else
    none

/- A criterion with its operator in small letters. -/
def lowered (part : Criterion) : Criterion :=
  { part with op := Word.lower part.op }

/- Check the parts in the order in which they are written. -/
def check
    (draft : Draft)
    (statement : String) : Except Error Select := do
  draft.columns.forM fun name => Check.column name statement
  Check.table draft.source statement
  draft.criteria.forM fun part =>
    Check.criterion part statement
  draft.orders.forM fun order =>
    Check.column order.field statement
  let limit ←
    match draft.limit with
    | none => pure 0
    | some text =>
        match limitValue? text with
        | some value => pure value
        | none => .error (.parse .limitValue statement)
  pure
    { columns := draft.columns
      source := draft.source
      groups :=
        if draft.conditional then
          [⟨.all, draft.criteria.map lowered⟩]
        else
          []
      orders := draft.orders
      limit := limit
      params := .empty }

end Draft

------------------------------------------------------------
-- Query text
------------------------------------------------------------

/- Read a query; its parameters are not set yet. -/
def Select.read (text : String) : Except Error Select :=
  if (Word.tokens text).isEmpty then
    .error (.parse .noTokens text)
  else
    let (tokens, finish) := Token.scan text
    match Draft.ofTokens tokens finish with
    | .error fault => .error (.parse fault text)
    | .ok draft => draft.check text

end SparseTables
