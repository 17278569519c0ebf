import SparseTables.Search.Terms

/-
  This file defines searches: conditions on the terms of a
  text, and how they are written.

  Words and quoted phrases stand side by side when all must
  occur.  `NOT`, `AND` and `OR` combine them, binding less
  and less tightly, and parentheses group what they combine.
  A star lets the last term of a phrase begin a longer one.

  Key definitions include:
    * `Phrase`
    * `Search`
    * `Search.read?`
    * `Search.holds`
-/

namespace SparseTables

------------------------------------------------------------
-- Searches
------------------------------------------------------------

/- Terms that follow each other. -/
structure Phrase where
  terms : List String
  /- The last term may begin a longer one. -/
  opened : Bool
deriving DecidableEq

/- A condition on the terms of a text. -/
inductive Search where
  | phrase (phrase : Phrase)
  | both (left right : Search)
  | either (left right : Search)
  | without (left right : Search)
deriving DecidableEq

namespace Phrase

/- Does a term of a text stand for a term of the phrase? -/
def stands (opened : Bool) (wanted term : String) : Bool :=
  if opened then term.startsWith wanted else term == wanted

/- Does the phrase stand at the start of some terms? -/
def starts (opened : Bool) : List String → List String → Bool
  | [], _ => true
  | _ :: _, [] => false
  | [last], term :: _ =>
      stands opened last term
  | first :: more, term :: rest =>
      term == first && starts opened more rest

/- Do all terms of the phrase occur, wherever they stand? -/
def touches (phrase : Phrase) (terms : List String) : Bool :=
  match phrase.terms.reverse with
  | [] => false
  | last :: others =>
      terms.any (stands phrase.opened last) &&
        others.all terms.contains

/- How often the phrase occurs; an empty one never does. -/
def count (phrase : Phrase) : List String → Nat
  | [] => 0
  | term :: rest =>
      let here :=
        !phrase.terms.isEmpty &&
          starts phrase.opened phrase.terms (term :: rest)
      (if here then 1 else 0) + count phrase rest

end Phrase

namespace Search

def isBoth : Search → Bool
  | both _ _ => true
  | _ => false

def isEither : Search → Bool
  | either _ _ => true
  | _ => false

/- Does a search hold of the terms of a text? -/
def holds (terms : List String) : Search → Bool
  | phrase p => decide (0 < p.count terms)
  | both left right => left.holds terms && right.holds terms
  | either left right => left.holds terms || right.holds terms
  | without left right =>
      left.holds terms && !right.holds terms

/-
  Do the terms of a text concern a search?  A phrase is
  concerned by all its terms, in whatever order.
-/
def concerns (terms : List String) : Search → Bool
  | phrase p => p.touches terms
  | both left right =>
      left.concerns terms && right.concerns terms
  | either left right =>
      left.concerns terms || right.concerns terms
  | without left right =>
      left.concerns terms && !right.holds terms

/- How deep a search nests; alike operators make one level. -/
def height : Search → Nat
  | phrase _ => 0
  | both left right =>
      max (left.height + if left.isBoth then 0 else 1)
        (right.height + if right.isBoth then 0 else 1)
  | either left right =>
      max (left.height + if left.isEither then 0 else 1)
        (right.height + if right.isEither then 0 else 1)
  | without left right =>
      max left.height right.height + 1

------------------------------------------------------------
-- Symbols
------------------------------------------------------------

/- The symbols of a written search. -/
inductive Symbol where
  | string (text : String)
  | star
  | opens
  | closes
  | and
  | or
  | not
deriving DecidableEq

/- The characters of words without quotes. -/
def isBare (c : Char) : Bool :=
  c.isAlphanum || c == '_' || c.toNat == 0x1A ||
    decide (0x80 ≤ c.toNat)

def isBlank (c : Char) : Bool :=
  c == ' ' || c == '\t' || c == '\n' || c == '\r'

/- A word without quotes, which may be an operator. -/
def ofWord (word : String) : Symbol :=
  if word == "AND" then .and
  else if word == "OR" then .or
  else if word == "NOT" then .not
  else .string word

/- Where the reading of symbols stands. -/
inductive Reading where
  | between
  | word (current : List Char)
  | quoted (current : List Char)
  /- Behind a quote, which may be the first of two. -/
  | afterQuote (current : List Char)

/- The symbol of a mark. -/
def ofMark? (c : Char) : Option Symbol :=
  if c == '*' then some .star
  else if c == '(' then some .opens
  else if c == ')' then some .closes
  else none

/- The symbols that start at a character outside a string. -/
def begin? (c : Char) : Option (List Symbol × Reading) :=
  if isBlank c then some ([], .between)
  else if isBare c then some ([], .word [c])
  else if c == '"' then some ([], .quoted [])
  else (ofMark? c).map fun symbol => ([symbol], .between)

/- A collected string; its last character comes first. -/
def text (current : List Char) : String :=
  String.ofList current.reverse

/- Read symbols, unless a mark or an open string is left. -/
def symbolsFrom? (reading : Reading) :
    List Char → Option (List Symbol)
  | [] =>
      match reading with
      | .between => some []
      | .word current => some [ofWord (text current)]
      | .quoted _ => none
      | .afterQuote current => some [.string (text current)]
  | c :: rest =>
      match reading with
      | .between => do
          let (symbols, reading) ← begin? c
          let more ← symbolsFrom? reading rest
          pure (symbols ++ more)
      | .word current =>
          if isBare c then
            symbolsFrom? (.word (c :: current)) rest
          else do
            let (symbols, reading) ← begin? c
            let more ← symbolsFrom? reading rest
            pure (ofWord (text current) :: symbols ++ more)
      | .quoted current =>
          if c == '"' then
            symbolsFrom? (.afterQuote current) rest
          else
            symbolsFrom? (.quoted (c :: current)) rest
      | .afterQuote current =>
          if c == '"' then
            symbolsFrom? (.quoted (c :: current)) rest
          else do
            let (symbols, reading) ← begin? c
            let more ← symbolsFrom? reading rest
            pure (.string (text current) :: symbols ++ more)

------------------------------------------------------------
-- Reading
------------------------------------------------------------

/- A search and the symbols behind it. -/
abbrev Parsed :=
  Option (Search × List Symbol)

/- Phrases without terms are left out beside others. -/
def beside : Option Search → Phrase → Option Search
  | none, p => some (.phrase p)
  | some (.phrase before), p =>
      if p.terms.isEmpty then some (.phrase before)
      else if before.terms.isEmpty then some (.phrase p)
      else some (.both (.phrase before) (.phrase p))
  | some before, p =>
      if p.terms.isEmpty then some before
      else some (.both before (.phrase p))

/- How many symbols can be kept while a search is read. -/
def room : Nat :=
  99

/- Can a phrase be kept behind what was read before it? -/
def hasRoom (kept : Nat) (before : Option Search) : Bool :=
  decide ((if before.isSome then kept + 3 else kept + 2) ≤ room)

/-
  Phrases side by side, behind those that were read, with
  `kept` symbols before them.
-/
def phrasesFrom (kept : Nat) (before : Option Search) :
    List Symbol → Parsed
  | .string s :: .star :: rest =>
      if hasRoom kept before then
        phrasesFrom kept
          (beside before ⟨Terms.ofText s, true⟩) rest
      else
        none
  | .string s :: rest =>
      if hasRoom kept before then
        phrasesFrom kept
          (beside before ⟨Terms.ofText s, false⟩) rest
      else
        none
  | rest => before.map fun search => (search, rest)

/- What reads a search with some symbols kept before it. -/
abbrev Reader :=
  Nat → List Symbol → Parsed

/-
  Operands with one operator between them, combined from the
  left.  The first number bounds theirs.
-/
def chain
    (operand : Reader)
    (operator : Symbol)
    (combine : Search → Search → Search)
    (kept : Nat) :
    Nat → Search → List Symbol → Parsed
  | 0, left, rest => some (left, rest)
  | n + 1, left, symbol :: rest =>
      if symbol = operator then do
        let (right, rest) ← operand (kept + 2) rest
        chain operand operator combine kept n
          (combine left right) rest
      else
        some (left, symbol :: rest)
  | _ + 1, left, [] => some (left, [])

/- A chain with its first operand. -/
def chained
    (operand : Reader)
    (operator : Symbol)
    (combine : Search → Search → Search) : Reader :=
  fun kept symbols => do
    let (first, rest) ← operand kept symbols
    chain operand operator combine kept rest.length first rest

/- Read a search whose parentheses nest at most so deep. -/
def parse : Nat → Reader
  | 0 => fun _ _ => none
  | depth + 1 =>
      let operand : Reader := fun kept symbols =>
        match symbols with
        | .opens :: rest => do
            let (inner, rest) ← parse depth (kept + 1) rest
            match rest with
            | .closes :: rest => pure (inner, rest)
            | _ => none
        | rest => phrasesFrom kept none rest
      chained
        (chained (chained operand .not .without) .and .both)
        .or .either

/- How deep a search may nest. -/
def heightLimit : Nat :=
  256

/- Read a written search; a text ends at a null character. -/
def read? (written : String) : Option Search := do
  let cs := written.toList.takeWhile fun c => c != '\x00'
  let symbols ← symbolsFrom? .between cs
  let (search, rest) ← parse (room + 1) 0 symbols
  if rest.isEmpty && search.height ≤ heightLimit then
    some search
  else
    none

end Search

end SparseTables
