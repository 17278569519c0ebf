/-
  This file defines the words of the query language: the
  names of tables, columns and parameters, the reserved
  words, and the comparison operators.

  A word is an ASCII letter followed by ASCII letters,
  digits and underscores, and it does not end in an
  underscore.  A parameter is a word behind an `@`.

  Key definitions include:
    * `Word.isWord`
    * `Word.isParameter`
    * `Word.isReserved`
    * `Word.isOperator`
    * `Word.clean`
    * `Word.tokens`
    * `Word.references`
-/

namespace SparseTables

namespace Word

------------------------------------------------------------
-- Shapes of names
------------------------------------------------------------

/- The characters that may follow the first one of a word. -/
def isTail (c : Char) : Bool :=
  c.isAlphanum || c == '_'

/- A letter, then letters, digits and underscores. -/
def isName : List Char → Bool
  | [] => false
  | c :: rest => c.isAlpha && rest.all isTail

/- A name that does not end in an underscore. -/
def isWordList (cs : List Char) : Bool :=
  isName cs && cs.getLast? != some '_'

/- Can the text name a table or a column? -/
def isWord (text : String) : Bool :=
  isWordList text.toList

/- Can the text name a parameter? -/
def isParameter (text : String) : Bool :=
  match text.toList with
  | '@' :: rest => isWordList rest
  | _ => false

------------------------------------------------------------
-- Letter case
------------------------------------------------------------

/-
  The small form of a character, for comparing with ASCII
  words.  Besides the ASCII capitals, the Kelvin sign is the
  only character whose small form is an ASCII letter.
-/
def small (c : Char) : Char :=
  if c == '\u212A' then 'k' else c.toLower

/- The text in small letters. -/
def lower (text : String) : String :=
  text.map small

/- The text in capitals, as far as ASCII letters go. -/
def upper (text : String) : String :=
  text.map Char.toUpper

/- Two texts that differ only in the case of ASCII letters. -/
def sameLetters (left right : String) : Bool :=
  left.map Char.toLower == right.map Char.toLower

------------------------------------------------------------
-- Reserved words and operators
------------------------------------------------------------

/- The pseudo-columns and the words of the query language. -/
def reserved : List String :=
  ["select", "from", "where", "limit", "value", "id",
    "count", "created", "lastmodified", "relevance"]

/- The operators a criterion may use. -/
def operators : List String :=
  ["=", "<>", ">", ">=", "<", "<=", "matches", "like"]

/- Reserved words are reserved in every letter case. -/
def isReserved (name : String) : Bool :=
  reserved.contains (lower name)

/- Operators are accepted in every letter case. -/
def isOperator (text : String) : Bool :=
  operators.contains (lower text)

------------------------------------------------------------
-- Aliases
------------------------------------------------------------

/- The ASCII letters and digits, behind a letter. -/
def cleanList (cs : List Char) : List Char :=
  match cs.filter Char.isAlphanum with
  | [] => ['a']
  | c :: rest =>
      if c.isAlpha then c :: rest else 'a' :: c :: rest

/- A form of the name that can serve as an alias. -/
def clean (name : String) : String :=
  String.ofList (cleanList name.toList)

------------------------------------------------------------
-- Tokens and parameter references
------------------------------------------------------------

/- The characters between tokens. -/
def isBlank (c : Char) : Bool :=
  c == ' ' || c == '\n' || c == '\r' || c == '\t'

/- Put a finished token in front of the later ones. -/
def emit
    (current : List Char)
    (later : List String) : List String :=
  if current.isEmpty then
    later
  else
    String.ofList current.reverse :: later

/-
  Split at blanks; `current` holds the open token, its last
  character first.
-/
def tokensFrom (current : List Char) :
    List Char → List String
  | [] => emit current []
  | c :: rest =>
      if isBlank c then
        emit current (tokensFrom [] rest)
      else
        tokensFrom (c :: current) rest

/- The runs of characters between blanks. -/
def tokens (text : String) : List String :=
  tokensFrom [] text.toList

/- A reference is open once its first letter was read. -/
def emitReference
    (current : Option (List Char))
    (later : List String) : List String :=
  match current with
  | some (c :: d :: rest) => emit (c :: d :: rest) later
  | _ => later

/-
  Scan for an `@`, a letter, and as many word characters as
  follow.  `current` is the open reference, its last
  character first.
-/
def referencesFrom (current : Option (List Char)) :
    List Char → List String
  | [] => emitReference current []
  | c :: rest =>
      if c == '@' then
        emitReference current
          (referencesFrom (some ['@']) rest)
      else
        match current with
        | none => referencesFrom none rest
        | some [at_] =>
            if c.isAlpha then
              referencesFrom (some [c, at_]) rest
            else
              referencesFrom none rest
        | some open_ =>
            if isTail c then
              referencesFrom (some (c :: open_)) rest
            else
              emitReference current
                (referencesFrom none rest)

/- The parameter references of a text, in order. -/
def references (text : String) : List String :=
  referencesFrom none text.toList

end Word

end SparseTables
