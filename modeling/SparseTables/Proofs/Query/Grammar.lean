import SparseTables.Proofs.Query.Phrases
import SparseTables.Proofs.Query.Splitting

/-
  This file gives the grammar of statements.

  An expression of the grammar is tried at a place of a text.
  What fails leaves the place as it was, and something else is
  tried there; the furthest place at which a rule failed is
  kept.

  What comes at a place is a token, behind blanks.  Key words,
  names and commas are found where the token is the right one.

  Main declarations:
    * `Cursor`
    * `Grammar`
    * `Grammar.run`
    * `Grammar.statement`
    * `Cursor.token?`
    * `Cursor.name?_skip`
    * `Cursor.word?_skip`
-/

namespace SparseTables

------------------------------------------------------------
-- Places in a text
------------------------------------------------------------

/- How many characters were read, and those that come. -/
structure Cursor where
  offset : Nat
  rest : List Char
deriving DecidableEq

namespace Cursor

def start (text : String) : Cursor :=
  ⟨0, text.toList⟩

/- The place some characters further. -/
def forth (cursor : Cursor) (count : Nat) : Cursor :=
  ⟨cursor.offset + count, cursor.rest.drop count⟩

/- The place behind the blanks. -/
def skip (cursor : Cursor) : Cursor :=
  cursor.forth (cursor.rest.takeWhile Word.isBlank).length

/- The characters of a run that come. -/
def run (cursor : Cursor) : List Char :=
  cursor.rest.takeWhile Token.isInner

/- The place behind a key word that no run goes on with. -/
def word?
    (cursor : Cursor)
    (spelling : String) : Option Cursor :=
  let behind := cursor.forth spelling.length
  if Word.sameLetters spelling
        (String.ofList (cursor.rest.take spelling.length)) &&
      !behind.rest.head?.any Token.isInner then
    some behind
  else
    none

/- The place behind a run. -/
def name? (cursor : Cursor) : Option Cursor :=
  if cursor.run.isEmpty then none
  else some (cursor.forth cursor.run.length)

def comma? (cursor : Cursor) : Option Cursor :=
  if cursor.rest.head? = some ',' then some (cursor.forth 1)
  else none

end Cursor

------------------------------------------------------------
-- The grammar
------------------------------------------------------------

/- The expressions of the grammar. -/
inductive Grammar where
  /- The beginning of the text. -/
  | origin
  /- A key word, in any letter case. -/
  | word (spelling : String)
  /- A run of characters, neither blanks nor commas. -/
  | name
  | comma
  /- The end of the text. -/
  | finish
  /- One after the other, with blanks between them. -/
  | next (first second : Grammar)
  /- The first one, or else the second. -/
  | either (first second : Grammar)
  | maybe (part : Grammar)
  /- As often as it can be, with blanks before each. -/
  | many (part : Grammar)
  /- A part with a name, whose failures are kept. -/
  | rule (part : Grammar)

/-
  What came of trying an expression: the place behind it, if
  it was found, and the furthest place at which a rule failed.
-/
structure Trial where
  found : Option Cursor
  furthest : Nat
deriving DecidableEq

namespace Trial

/- The trial of a rule of its own. -/
def named (cursor : Cursor) (found : Option Cursor) : Trial :=
  ⟨found, if found.isSome then 0 else cursor.offset⟩

/- Where the text is at fault, if nothing was found. -/
def fault (trial : Trial) : Option Nat :=
  if trial.found.isSome then none else some trial.furthest

/- The same with failures that came before. -/
def since (trial : Trial) (furthest : Nat) : Trial :=
  { trial with furthest := max furthest trial.furthest }

end Trial

namespace Grammar

/- Try something again and again, a few times at most. -/
def repeated
    (attempt : Cursor → Trial) : Nat → Cursor → Trial
  | 0, cursor => ⟨some cursor, 0⟩
  | fuel + 1, cursor =>
      let trial := attempt cursor.skip
      match trial.found with
      | some behind =>
          (repeated attempt fuel behind).since trial.furthest
      | none => ⟨some cursor, trial.furthest⟩

/- Try an expression at a place. -/
def run : Grammar → Cursor → Trial
  | origin, cursor =>
      ⟨if cursor.offset = 0 then some cursor else none, 0⟩
  | word spelling, cursor =>
      .named cursor (cursor.word? spelling)
  | name, cursor => .named cursor cursor.name?
  | comma, cursor => ⟨cursor.comma?, 0⟩
  | finish, cursor =>
      .named cursor
        (if cursor.rest.isEmpty then some cursor else none)
  | next first second, cursor =>
      let trial := first.run cursor
      match trial.found with
      | some behind =>
          (second.run behind.skip).since trial.furthest
      | none => trial
  | either first second, cursor =>
      let trial := first.run cursor
      match trial.found with
      | some _ => trial
      | none => (second.run cursor).since trial.furthest
  | maybe part, cursor =>
      let trial := part.run cursor
      ⟨some (trial.found.getD cursor), trial.furthest⟩
  | many part, cursor =>
      -- no part is empty, so this is as often as it can be
      repeated part.run (cursor.rest.length + 1) cursor
  | rule part, cursor =>
      let trial := part.run cursor
      match trial.found with
      | some _ => trial
      | none => trial.since cursor.offset

------------------------------------------------------------
-- Statements
------------------------------------------------------------

def selectClause : Grammar :=
  rule (next (word "select")
    (next name (many (next comma name))))

def fromClause : Grammar :=
  rule (next (word "from") name)

/- A column, an operator and a parameter. -/
def criterion : Grammar :=
  rule (next name (next name name))

def whereClause : Grammar :=
  rule (next (word "where")
    (next criterion (many (next (word "and") criterion))))

def direction : Grammar :=
  rule (either (word "asc") (word "desc"))

def orderItem : Grammar :=
  rule (next name (maybe direction))

def orderClause : Grammar :=
  rule (next (word "order") (next (word "by")
    (next orderItem (many (next comma orderItem)))))

def limitClause : Grammar :=
  rule (next (word "limit") name)

/- What may come behind the order. -/
def afterOrder : Grammar :=
  next (maybe limitClause) finish

/- What may come behind the conditions. -/
def afterWhere : Grammar :=
  next (maybe orderClause) afterOrder

/- What may come behind the table. -/
def afterTable : Grammar :=
  next (maybe whereClause) afterWhere

def statement : Grammar :=
  rule (next origin
    (next selectClause (next fromClause afterTable)))

end Grammar

------------------------------------------------------------
-- Tokens at a place
------------------------------------------------------------

/- A token whose place does not matter. -/
def Token.unplaced (text : String) : Token :=
  ⟨text, .start⟩

namespace Cursor

/- The token that comes behind the blanks, and its end. -/
def token? (cursor : Cursor) : Option (Token × Cursor) :=
  let here := cursor.skip
  if here.rest.head? = some ',' then
    some (.unplaced ",", here.forth 1)
  else if here.run.isEmpty then
    none
  else
    some (.unplaced (String.ofList here.run),
      here.forth here.run.length)

/- The place behind the token that comes, if it is right. -/
def after?
    (cursor : Cursor)
    (right : Token → Bool) : Option Cursor :=
  cursor.token?.bind fun (t, behind) =>
    if right t then some behind else none

/- Does every token that comes here fit? -/
def Faces (cursor : Cursor) (fits : Token → Prop) : Prop :=
  ∀ t behind, cursor.token? = some (t, behind) → fits t

/- Is a place as far as another, or further? -/
structure Upto (cursor further : Cursor) : Prop where
  offset : cursor.skip.offset ≤ further.skip.offset
  rest : further.rest.length ≤ cursor.rest.length

variable {cursor behind : Cursor} {t : Token}

theorem faces_of_token?
    {fits : Token → Prop}
    (hToken : cursor.token? = some (t, behind))
    (hFits : fits t) :
    cursor.Faces fits := by
  intro other beyond hOther
  rw [hToken] at hOther
  cases hOther
  exact hFits

theorem faces_or_right
    (cursor : Cursor)
    (right : Token → Bool) :
    (∃ t behind, cursor.token? = some (t, behind) ∧
        right t = true) ∨
      cursor.Faces fun t => right t = false := by
  by_cases hRight : ∃ t behind,
      cursor.token? = some (t, behind) ∧ right t = true
  · exact .inl hRight
  · refine .inr fun t behind hToken => ?_
    by_contra hTrue
    rw [Bool.not_eq_false] at hTrue
    exact hRight ⟨t, behind, hToken, hTrue⟩

theorem any_head?_dropWhile
    (p : Char → Bool)
    (cs : List Char) :
    (cs.dropWhile p).head?.any p = false := by
  have hHead := List.head?_dropWhile_not p cs
  cases hRest : (cs.dropWhile p).head? with
  | none => rfl
  | some c =>
      rw [hRest] at hHead
      exact hHead

theorem takeWhile_of_any_head?
    {p : Char → Bool}
    {cs : List Char}
    (hHead : cs.head?.any p = false) :
    cs.takeWhile p = [] := by
  cases cs with
  | nil => rfl
  | cons c rest =>
      have hFirst : p c = false := hHead
      simp [hFirst]

theorem rest_skip (cursor : Cursor) :
    cursor.skip.rest = cursor.rest.dropWhile Word.isBlank := by
  have hParts : cursor.rest =
      cursor.rest.takeWhile Word.isBlank ++
        cursor.rest.dropWhile Word.isBlank :=
    List.takeWhile_append_dropWhile.symm
  exact (congrArg (List.drop _) hParts).trans List.drop_left

/- No blank comes behind the blanks. -/
theorem skip_skip (cursor : Cursor) :
    cursor.skip.skip = cursor.skip := by
  have hNone :
      cursor.skip.rest.takeWhile Word.isBlank = [] := by
    rw [rest_skip]
    exact takeWhile_of_any_head? (any_head?_dropWhile _ _)
  rw [skip, hNone]
  rfl

theorem token?_skip (cursor : Cursor) :
    cursor.skip.token? = cursor.token? := by
  rw [token?, token?, skip_skip]

theorem offset_le_skip (cursor : Cursor) :
    cursor.offset ≤ cursor.skip.offset :=
  Nat.le_add_right _ _

theorem upto_skip (cursor : Cursor) :
    cursor.Upto cursor.skip where
  offset := Nat.le_of_eq (by rw [skip_skip])
  rest := by simp [skip, forth]

theorem Upto.trans
    {further furthest : Cursor}
    (hFirst : cursor.Upto further)
    (hSecond : further.Upto furthest) :
    cursor.Upto furthest where
  offset := Nat.le_trans hFirst.offset hSecond.offset
  rest := Nat.le_trans hSecond.rest hFirst.rest

/- A run is as long as it can be. -/
theorem rest_eq_run_append (cursor : Cursor) :
    ∃ later, cursor.rest = cursor.run ++ later ∧
      later.head?.any Token.isInner = false :=
  ⟨cursor.rest.dropWhile Token.isInner,
    List.takeWhile_append_dropWhile.symm,
    any_head?_dropWhile _ _⟩

theorem isInner_of_mem_run
    {c : Char}
    (hMem : c ∈ cursor.run) :
    Token.isInner c = true :=
  List.all_eq_true.1 List.all_takeWhile c hMem

/- Inner characters are the run if none goes on with them. -/
theorem run_eq_of_isInner
    {front later : List Char}
    (hRest : cursor.rest = front ++ later)
    (hFront : ∀ c ∈ front, Token.isInner c = true)
    (hLater : later.head?.any Token.isInner = false) :
    cursor.run = front := by
  rw [run, hRest, List.takeWhile_append_of_pos hFront,
    takeWhile_of_any_head? hLater, List.append_nil]

theorem run_of_head
    (hHead : cursor.rest.head? = some ',') :
    cursor.run = [] := by
  obtain ⟨rest, hRest⟩ := List.head?_eq_some_iff.1 hHead
  rw [run, hRest]
  rfl

theorem comma?_skip (cursor : Cursor) :
    cursor.skip.comma? = cursor.after? Token.isComma := by
  rw [comma?, after?, token?]
  split
  · rfl
  · split
    · rfl
    · rename_i hNone
      have hText : String.ofList cursor.skip.run ≠ "," := by
        intro hComma
        have hMem : ',' ∈ cursor.skip.run := by
          rw [← String.toList_ofList (l := cursor.skip.run),
            hComma]
          decide
        cases isInner_of_mem_run hMem
      simp [Token.isComma, Token.unplaced, hText]

theorem name?_skip (cursor : Cursor) :
    cursor.skip.name? =
      cursor.after? fun t => !t.isComma := by
  have hComma := comma?_skip cursor
  rw [comma?, after?, token?] at hComma
  rw [name?, after?, token?]
  split at hComma
  · rename_i hHead
    simp [run_of_head hHead, hHead, Token.isComma,
      Token.unplaced]
  · rename_i hHead
    rw [if_neg hHead]
    split
    · rfl
    · rename_i hSome
      rw [if_neg hSome] at hComma
      simp_all

/- Where no token comes, the text ends behind blanks. -/
theorem token?_eq_none_iff :
    cursor.token? = none ↔ cursor.skip.rest = [] := by
  constructor
  · intro hNone
    cases hRest : cursor.skip.rest with
    | nil => rfl
    | cons c rest =>
        have hBlank : Word.isBlank c = false := by
          have hHead :=
            any_head?_dropWhile Word.isBlank cursor.rest
          rw [← rest_skip, hRest] at hHead
          exact hHead
        rw [token?] at hNone
        split at hNone
        · cases hNone
        · rename_i hHead
          have hInner : Token.isInner c = true :=
            (Token.isInner_iff c).2
              ⟨hBlank, by simpa [hRest] using hHead⟩
          simp [run, hRest, hInner] at hNone
  · intro hNone
    simp [token?, hNone, run]

/- A token takes at least one character. -/
theorem forth_of_token?
    (hToken : cursor.token? = some (t, behind)) :
    ∃ count, behind = cursor.skip.forth (count + 1) ∧
      cursor.skip.rest ≠ [] := by
  have hRest : cursor.skip.rest ≠ [] := by
    intro hNone
    rw [token?_eq_none_iff.2 hNone] at hToken
    cases hToken
  rw [token?] at hToken
  split at hToken
  · cases hToken
    exact ⟨0, rfl, hRest⟩
  · split at hToken
    · cases hToken
    · rename_i hSome
      obtain ⟨count, hCount⟩ :=
        Nat.exists_eq_succ_of_ne_zero
          (by simpa using hSome : cursor.skip.run.length ≠ 0)
      cases hToken
      exact ⟨count, by rw [hCount], hRest⟩

theorem upto_of_token?
    (hToken : cursor.token? = some (t, behind)) :
    cursor.Upto behind := by
  obtain ⟨count, rfl, -⟩ := forth_of_token? hToken
  constructor
  · exact Nat.le_trans (Nat.le_add_right _ (count + 1))
      (cursor.skip.forth (count + 1)).offset_le_skip
  · simp [skip, forth]

theorem shorter_of_token?
    (hToken : cursor.token? = some (t, behind)) :
    behind.rest.length < cursor.rest.length := by
  obtain ⟨count, rfl, hRest⟩ := forth_of_token? hToken
  have hSkip := (upto_skip cursor).rest
  have hSome := List.length_pos_iff.2 hRest
  simp only [forth, List.length_drop]
  omega

end Cursor

------------------------------------------------------------
-- Key words
------------------------------------------------------------

/- Can the text be a run, in any letter case? -/
def Word.isRun (spelling : String) : Bool :=
  !spelling.isEmpty &&
    (spelling.toList.map Char.toLower).all Token.isInner

/- Blanks and commas have no letter case. -/
theorem Token.toLower_of_outer
    {c : Char}
    (hOuter : isInner c = false) :
    c.toLower = c := by
  have hEach : c = ' ' ∨ c = '\n' ∨ c = '\r' ∨ c = '\t' ∨
      c = ',' := by
    rw [← Bool.not_eq_true, isInner_iff] at hOuter
    simp only [Word.isBlank, Bool.or_eq_false_iff,
      beq_eq_false_iff_ne] at hOuter
    grind
  rcases hEach with rfl | rfl | rfl | rfl | rfl <;> rfl

section Keys

variable {spelling : String}
  (hKey : Word.isRun spelling = true)
include hKey

/- What spells a key word are inner characters. -/
theorem Word.isInner_of_sameLetters
    {cs : List Char}
    (hSame : sameLetters spelling (String.ofList cs) = true) :
    cs ≠ [] ∧ ∀ c ∈ cs, Token.isInner c = true := by
  rw [sameLetters_iff, String.toList_ofList] at hSame
  simp only [isRun, Bool.and_eq_true, hSame] at hKey
  constructor
  · rintro rfl
    simp_all
  · intro c hMem
    by_contra hOuter
    rw [Bool.not_eq_true] at hOuter
    have hInner := List.all_eq_true.1 hKey.2 c.toLower
      (List.mem_map_of_mem hMem)
    rw [Token.toLower_of_outer hOuter, hOuter] at hInner
    cases hInner

/- A key word comes where the run spells it. -/
theorem Cursor.word?_eq (cursor : Cursor) :
    cursor.word? spelling =
      if Word.sameLetters spelling (String.ofList cursor.run)
      then some (cursor.forth cursor.run.length)
      else none := by
  obtain ⟨later, hRest, hLater⟩ := cursor.rest_eq_run_append
  rw [word?]
  by_cases hRun : Word.sameLetters spelling
      (String.ofList cursor.run) = true
  · have hLength : spelling.length = cursor.run.length := by
      have hLetters := Word.sameLetters_iff.1 hRun
      rw [String.toList_ofList] at hLetters
      simpa [String.length_toList] using
        congrArg List.length hLetters
    have hTake : cursor.rest.take cursor.run.length =
        cursor.run := by
      conv => lhs; rw [hRest]
      exact List.take_left
    have hDrop : (cursor.forth cursor.run.length).rest =
        later := by
      conv => lhs; rw [forth, hRest]
      exact List.drop_left
    simp only [hLength, hTake, hDrop, hRun, hLater]
    rfl
  · rw [if_neg hRun, if_neg]
    intro hWord
    rw [Bool.and_eq_true, Bool.not_eq_true'] at hWord
    have hInner :=
      (Word.isInner_of_sameLetters hKey hWord.1).2
    have hSame := run_eq_of_isInner
      (List.take_append_drop _ _).symm hInner hWord.2
    exact hRun (hSame ▸ hWord.1)

theorem Cursor.word?_skip (cursor : Cursor) :
    cursor.skip.word? spelling =
      cursor.after? (Token.spells spelling) := by
  have hEmpty :
      Word.sameLetters spelling (String.ofList []) = false := by
    by_contra hSame
    rw [Bool.not_eq_false] at hSame
    exact (Word.isInner_of_sameLetters hKey hSame).1 rfl
  have hComma : Word.sameLetters spelling "," = false := by
    by_contra hSame
    rw [Bool.not_eq_false] at hSame
    have hLetters : Word.sameLetters spelling
        (String.ofList [',']) = true :=
      hSame
    have hInner :=
      (Word.isInner_of_sameLetters hKey hLetters).2 ',' (by simp)
    cases hInner
  rw [word?_eq hKey, after?, token?]
  by_cases hHead : cursor.skip.rest.head? = some ','
  · simp [run_of_head hHead, hHead, hEmpty, hComma,
      Token.unplaced, Token.spells]
  · rw [if_neg hHead]
    by_cases hNone : cursor.skip.run = []
    · simp [hNone, hEmpty]
    · have hSome : cursor.skip.run.isEmpty = false := by
        simpa using hNone
      rw [hSome]
      rfl

end Keys

end SparseTables
