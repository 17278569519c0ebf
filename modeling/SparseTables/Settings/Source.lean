import SparseTables.Settings.Path
import SparseTables.Word

/-
  This file reads the two sources of settings: the text of a
  settings file, and environment variables.  Both give a list
  of assignments to dotted paths.

  A settings file has one assignment, section header or
  comment a line.  Values are quoted texts, integers and
  truth values.  A path may be set once, and a section may
  be opened once, by a header or by dotted keys.

  Key definitions include:
    * `Setting`
    * `Setting.Content`
    * `Setting.Value`
    * `Setting.readFile?`
    * `Setting.ofVariable?`
-/

namespace SparseTables

namespace Setting

/- What a setting can hold. -/
inductive Content where
  | text (s : String)
  | integer (i : Int)
  | truth (b : Bool)
deriving DecidableEq

/-
  What a path is set to: content, or a section that a header
  opens or that dotted keys enter.
-/
inductive Value where
  | content (found : Content)
  | opened
  | entered
deriving DecidableEq

namespace Value

def isContent : Value → Bool
  | content _ => true
  | _ => false

end Value

end Setting

/- An assignment to a path. -/
structure Setting where
  path : List String
  value : Setting.Value
deriving DecidableEq

namespace Setting

------------------------------------------------------------
-- Characters
------------------------------------------------------------

/- The characters that stand for themselves. -/
def isPlain (c : Char) : Bool :=
  c == '\t' || (decide (0x20 ≤ c.toNat) && c.toNat != 0x7F)

/- Only blanks and a comment are left on the line. -/
def isDone (cs : List Char) : Bool :=
  match skip cs with
  | [] => true
  | '#' :: comment => comment.all isPlain
  | _ => false

------------------------------------------------------------
-- Quoted texts
------------------------------------------------------------

/- The value of hexadecimal digits. -/
def hexadecimal? (digits : List Char) : Option Nat :=
  digits.foldl
    (fun sum c => do
      let n ← sum
      if c.isDigit then some (16 * n + (c.toNat - 48))
      else if 'a' ≤ c ∧ c ≤ 'f' then
        some (16 * n + (c.toNat - 87))
      else if 'A' ≤ c ∧ c ≤ 'F' then
        some (16 * n + (c.toNat - 55))
      else none)
    (some 0)

/- The character of a code. -/
def charOf? (code : Nat) : Option Char :=
  if h : code.isValidChar then
    some (Char.ofNatAux code h)
  else
    none

/- The character of a code written in so many digits. -/
def coded? (width : Nat) (cs : List Char) : Option Char :=
  if (cs.take width).length = width then
    (hexadecimal? (cs.take width)).bind charOf?
  else
    none

/-
  The text up to the closing quote, with escapes resolved,
  and what follows.  The first argument bounds the steps.
-/
def basic? : Nat → List Char → Option (List Char × List Char)
  | 0, _ => none
  | _ + 1, [] => none
  | _ + 1, '"' :: rest => some ([], rest)
  | n + 1, '\\' :: c :: rest =>
      let simple (meaning : Char) :=
        (basic? n rest).map fun found =>
          (meaning :: found.1, found.2)
      let code (width : Nat) :=
        (coded? width rest).bind fun meaning =>
          (basic? n (rest.drop width)).map fun found =>
            (meaning :: found.1, found.2)
      match c with
      | 'b' => simple '\x08'
      | 't' => simple '\t'
      | 'n' => simple '\n'
      | 'f' => simple '\x0c'
      | 'r' => simple '\r'
      | 'e' => simple '\x1b'
      | '"' => simple '"'
      | '\\' => simple '\\'
      | 'x' => code 2
      | 'u' => code 4
      | 'U' => code 8
      | _ => none
  | n + 1, c :: rest =>
      if isPlain c && c != '\\' then
        (basic? n rest).map fun found =>
          (c :: found.1, found.2)
      else
        none

/- A text in single quotes has no escapes. -/
def literal? (cs : List Char) : Option (List Char × List Char) :=
  let found := cs.takeWhile fun c => c != '\''
  match cs.drop found.length with
  | _ :: rest =>
      if found.all isPlain then some (found, rest) else none
  | [] => none

------------------------------------------------------------
-- Integers
------------------------------------------------------------

/- Digits with single underscores between them. -/
def ungrouped? : List Char → Option (List Char)
  | [] => none
  | [c] => if c == '_' then none else some [c]
  | c :: '_' :: rest =>
      if c == '_' then none
      else (ungrouped? rest).map fun digits => c :: digits
  | c :: rest =>
      if c == '_' then none
      else (ungrouped? rest).map fun digits => c :: digits

/- Decimal digits without a zero in front. -/
def decimal? (cs : List Char) : Option Nat :=
  match ungrouped? cs with
  | some digits =>
      if !digits.all Char.isDigit then none
      else if digits.length > 1 && digits.head? == some '0' then
        none
      else
        some (Decimal.value digits)
  | none => none

/- Digits of another base. -/
def based? (base : Nat) (cs : List Char) : Option Nat :=
  match ungrouped? cs with
  | some digits =>
      digits.foldl
        (fun sum c => do
          let n ← sum
          let digit ← hexadecimal? [c]
          if digit < base then some (base * n + digit) else none)
        (some 0)
  | none => none

/- An integer within 64 bits. -/
def integer? (cs : List Char) : Option Int :=
  let found : Option Int :=
    match cs with
    | '-' :: rest => (decimal? rest).map fun n => -(n : Int)
    | '+' :: rest => (decimal? rest).map fun n => (n : Int)
    | '0' :: 'x' :: rest =>
        (based? 16 rest).map fun n => (n : Int)
    | '0' :: 'o' :: rest =>
        (based? 8 rest).map fun n => (n : Int)
    | '0' :: 'b' :: rest =>
        (based? 2 rest).map fun n => (n : Int)
    | _ => (decimal? cs).map fun n => (n : Int)
  found.filter Bounds.isSigned64

------------------------------------------------------------
-- Lines
------------------------------------------------------------

/- One key of a dotted path, and what follows. -/
def key? (cs : List Char) : Option (String × List Char) :=
  match skip cs with
  | '"' :: rest =>
      (basic? (rest.length + 1) rest).map fun found =>
        (String.ofList found.1, found.2)
  | '\'' :: rest =>
      (literal? rest).map fun found =>
        (String.ofList found.1, found.2)
  | start => bare? start

/- A dotted path; the first argument bounds the steps. -/
def path? : Nat → List Char → Option (List String × List Char)
  | 0, _ => none
  | n + 1, cs => do
      let (key, rest) ← key? cs
      match skip rest with
      | '.' :: more =>
          let (keys, rest) ← path? n more
          pure (key :: keys, rest)
      | _ => pure ([key], rest)

/- The content that must fill the rest of a line. -/
def content? (cs : List Char) : Option Content :=
  match skip cs with
  | '"' :: rest => do
      let (found, rest) ← basic? (rest.length + 1) rest
      if isDone rest then
        some (.text (String.ofList found))
      else
        none
  | '\'' :: rest => do
      let (found, rest) ← literal? rest
      if isDone rest then
        some (.text (String.ofList found))
      else
        none
  | start =>
      let found := start.takeWhile fun c =>
        !isSpace c && c != '#'
      if !isDone (start.drop found.length) then
        none
      else if found == ['t', 'r', 'u', 'e'] then
        some (.truth true)
      else if found == ['f', 'a', 'l', 's', 'e'] then
        some (.truth false)
      else
        (integer? found).map .integer

/-
  An assignment to a dotted path of a section, after the
  sections that the path enters.
-/
def entering
    (section_ path : List String)
    (found : Content) : List Setting :=
  (List.range path.length).tail.map (fun size =>
    ⟨section_ ++ path.take size, .entered⟩) ++
    [⟨section_ ++ path, .content found⟩]

/-
  One line within a section: nothing, a header, or an
  assignment.  It gives the section that lines after it are
  in.
-/
def line?
    (section_ : List String)
    (cs : List Char) : Option (List String × List Setting) :=
  if isDone cs then
    some (section_, [])
  else
    match skip cs with
    | '[' :: rest => do
        let (path, rest) ← path? (rest.length + 1) rest
        match skip rest with
        | ']' :: rest =>
            if isDone rest then
              some (path, [⟨path, .opened⟩])
            else
              none
        | _ => none
    | start => do
        let (path, rest) ← path? (start.length + 1) start
        match skip rest with
        | '=' :: rest =>
            let found ← content? rest
            some (section_, entering section_ path found)
        | _ => none

/- Lines one after another. -/
def lines?
    (section_ : List String) :
    List (List Char) → Option (List Setting)
  | [] => some []
  | line :: rest => do
      let (later, found) ← line? section_ line
      let more ← lines? later rest
      pure (found ++ more)

/- A line without a carriage return at its end. -/
def chomp (line : List Char) : List Char :=
  if line.getLast? = some '\r' then line.dropLast else line

/-
  The lines of a text.  A carriage return belongs to the end
  of the line before it; behind the last line it stands for
  itself.
-/
def linesOf (text : String) : List (List Char) :=
  let lines := (text.splitOn "\n").map String.toList
  lines.dropLast.map chomp ++ lines.getLast?.toList

/-
  Does a setting keep a later one from being made?  Content
  has nothing below it, and only dotted keys come back to a
  section that dotted keys entered first.
-/
def excludes (first second : Setting) : Bool :=
  if first.path == second.path then
    first.value != .entered || second.value != .entered
  else
    (first.value.isContent &&
      first.path.isPrefixOf second.path) ||
    (second.path.isPrefixOf first.path &&
      (second.value.isContent ||
        (second.value == .entered && first.value == .opened)))

/- No setting stands in the way of another. -/
def areCompatible : List Setting → Bool
  | [] => true
  | first :: rest =>
      rest.all (fun second => !excludes first second) &&
        areCompatible rest

/- A mark in front of a text that is no part of it. -/
def unmarked (text : String) : String :=
  (text.dropPrefix "\uFEFF").toString

/- The settings of a file, unless its text is malformed. -/
def readFile? (text : String) : Option (List Setting) :=
  (lines? [] (linesOf (unmarked text))).filter areCompatible

------------------------------------------------------------
-- Environment variables
------------------------------------------------------------

/- The text before the names of variables. -/
def variablePrefix : String :=
  "eavql__"

/-
  A variable sets the path that its name spells behind the
  prefix, in any letter case, with two underscores or a
  point between keys.
-/
def ofVariable? (name value : String) : Option Setting :=
  let small := Word.lower name
  if small.startsWith variablePrefix then
    let rest := (small.drop variablePrefix.length).toString
    let path := ".".intercalate (rest.splitOn "__")
    some ⟨[path], .content (.text value)⟩
  else
    none

end Setting

end SparseTables
