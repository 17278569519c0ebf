import SparseTables.Word

/-
  This file defines the tokens of query text and the stages
  of reading it.

  A query is read token by token.  The stage says what was
  read last, and with it which tokens may follow and whether
  the query may end.  Key words are not reserved: where a
  name may stand, every token but a comma is one.

  Key definitions include:
    * `Token`
    * `Position`
    * `Stage`
    * `Stage.next`
    * `Stage.mayEnd`
    * `Stage.expects`
    * `Token.scan`
-/

namespace SparseTables

------------------------------------------------------------
-- Positions and tokens
------------------------------------------------------------

/- A place in a text; lines and columns count from one. -/
structure Position where
  line : Nat
  column : Nat
deriving DecidableEq

namespace Position

def start : Position :=
  ⟨1, 1⟩

/- The place behind a character. -/
def after (p : Position) (c : Char) : Position :=
  if c == '\n' then
    ⟨p.line + 1, 1⟩
  else
    ⟨p.line, p.column + 1⟩

end Position

/- A comma, or a run of characters without commas. -/
structure Token where
  text : String
  position : Position
deriving DecidableEq

namespace Token

def isComma (t : Token) : Bool :=
  t.text == ","

/- Does the token spell a key word, in any letter case? -/
def spells (word : String) (t : Token) : Bool :=
  Word.sameLetters word t.text

/-
  Put the open run in front of later tokens; the run holds
  its characters in reverse.
-/
def close
    (run : List Char)
    (began : Position)
    (later : List Token × Position) :
    List Token × Position :=
  if run.isEmpty then
    later
  else
    (⟨String.ofList run.reverse, began⟩ :: later.1, later.2)

/-
  Split a text into tokens, and tell the place of its end.
  `run` is the open run and `began` is where it began.
-/
def scanFrom
    (run : List Char)
    (began here : Position) :
    List Char → List Token × Position
  | [] => close run began ([], here)
  | c :: rest =>
      let beyond := here.after c
      if Word.isBlank c then
        close run began (scanFrom [] beyond beyond rest)
      else if c == ',' then
        let later := scanFrom [] beyond beyond rest
        close run began (⟨",", here⟩ :: later.1, later.2)
      else
        scanFrom (c :: run) (if run.isEmpty then here else began)
          beyond rest

/- The tokens of a text and the place of its end. -/
def scan (text : String) : List Token × Position :=
  scanFrom [] .start .start text.toList

end Token

------------------------------------------------------------
-- Stages
------------------------------------------------------------

/- What has been read last, or what has to come. -/
inductive Stage where
  /- Nothing has been read. -/
  | start
  /- A selected column has to come. -/
  | column
  /- A selected column was read. -/
  | selected
  /- The name of the table has to come. -/
  | source
  /- The name of the table was read. -/
  | table
  /- The column of a criterion has to come. -/
  | criterion
  /- The operator of a criterion has to come. -/
  | operator
  /- The parameter of a criterion has to come. -/
  | parameter
  /- A criterion was read. -/
  | condition
  /- The second word of `ORDER BY` has to come. -/
  | orderBy
  /- A column to order by has to come. -/
  | orderColumn
  /- A column to order by was read. -/
  | ordered
  /- The direction of an order was read. -/
  | directed
  /- The value of the limit has to come. -/
  | limit
  /- The value of the limit was read. -/
  | limited
deriving DecidableEq

namespace Stage

/- A name may be any token but a comma. -/
def name (stage : Stage) (t : Token) : Option Stage :=
  if t.isComma then none else some stage

/- The clauses behind the order columns. -/
def afterOrder (t : Token) : Option Stage :=
  if t.isComma then some orderColumn
  else if t.spells "limit" then some limit
  else none

/- The clauses behind the conditions. -/
def afterWhere (t : Token) : Option Stage :=
  if t.spells "order" then some orderBy
  else if t.spells "limit" then some limit
  else none

/- The stage behind a token, if the token may come. -/
def next (stage : Stage) (t : Token) : Option Stage :=
  match stage with
  | start => if t.spells "select" then some column else none
  | column => name selected t
  | selected =>
      if t.isComma then some column
      else if t.spells "from" then some source
      else none
  | source => name table t
  | table =>
      if t.spells "where" then some criterion
      else afterWhere t
  | criterion => name operator t
  | operator => name parameter t
  | parameter => name condition t
  | condition =>
      if t.spells "and" then some criterion
      else afterWhere t
  | orderBy => if t.spells "by" then some orderColumn else none
  | orderColumn => name ordered t
  | ordered =>
      if t.spells "asc" || t.spells "desc" then some directed
      else afterOrder t
  | directed => afterOrder t
  | limit => name limited t
  | limited => none

/- May the query end here? -/
def mayEnd : Stage → Bool
  | table | condition | ordered | directed | limited => true
  | _ => false

/- What may come, as error texts say it. -/
def expects : Stage → String
  | start => "SELECT"
  | column | criterion | orderColumn => "column name"
  | selected => "FROM"
  | source => "table name"
  | table => "end of statement, WHERE, ORDER, or LIMIT"
  | operator => "operator"
  | parameter => "parameter name"
  | condition => "end of statement, AND, ORDER, or LIMIT"
  | orderBy => "BY"
  | ordered => "end of statement, LIMIT, or statement"
  | directed => "end of statement or LIMIT"
  | limit => "LIMIT value"
  | limited => "end of statement"

end Stage

end SparseTables
