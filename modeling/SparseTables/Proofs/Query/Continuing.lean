import SparseTables.Proofs.Query.Backtracking
import SparseTables.Proofs.Query.Statements

/-
  This file shows where the reading of a text fails that is
  no statement.

  The text is at fault at the furthest place at which a rule
  of the grammar fails.  From every stage of reading some
  words lead to the end of a phrase, so the tokens that were
  read always begin a statement.  Reading stops at the first
  token with which they do not, or at the end of the text.

  Main declarations:
    * `Stage.Leads`
    * `Draft.ofTokens_of_grammar`
    * `Grammar.found_iff_spelled`
    * `Begins`
    * `begins_of_leads`
    * `not_begins_of_leads`
    * `Select.read_fails_where_no_statement_goes_on`
-/

namespace SparseTables

------------------------------------------------------------
-- Placed tokens in front of a place
------------------------------------------------------------

namespace Token

open Position (behind)

/- A blank is passed over. -/
theorem skip_blank
    {offset : Nat}
    {c : Char}
    {rest : List Char}
    (hBlank : Word.isBlank c = true) :
    (Cursor.mk offset (c :: rest)).skip =
      (Cursor.mk (offset + 1) rest).skip := by
  simp [Cursor.skip, Cursor.forth, hBlank, Nat.add_assoc,
    Nat.add_comm 1]

/- Where no token is placed, none comes. -/
theorem Placed.token?_nil
    {before cs : List Char}
    (hPlaced : Placed before cs []) :
    (Cursor.mk before.length cs).token? = none ∧
      (Cursor.mk before.length cs).skip.offset =
        (before ++ cs).length := by
  generalize hTokens : ([] : List Token) = tokens at hPlaced
  induction hPlaced with
  | nil => exact ⟨rfl, by simp [Cursor.skip, Cursor.forth]⟩
  | @blank before rest c tokens hBlank _ ih =>
      have hRest := ih hTokens
      rw [List.length_append] at hRest
      rw [Cursor.token?, skip_blank hBlank, ← Cursor.token?]
      simpa using hRest
  | comma => cases hTokens
  | run => cases hTokens

/- A token comes where it is placed, and others behind it. -/
theorem Placed.token?_cons
    {before cs : List Char}
    {t : Token}
    {later : List Token}
    (hPlaced : Placed before cs (t :: later)) :
    ∃ front longer rest,
      (Cursor.mk before.length cs).token? =
        some (unplaced t.text, ⟨longer.length, rest⟩) ∧
      (Cursor.mk before.length cs).skip.offset =
        front.length ∧
      front <+: before ++ cs ∧
      t.position = behind front ∧
      Placed longer rest later ∧
      longer ++ rest = before ++ cs := by
  generalize hTokens : t :: later = tokens at hPlaced
  induction hPlaced with
  | nil => cases hTokens
  | @blank before rest c tokens hBlank _ ih =>
      have hRest := ih hTokens
      rw [List.length_append, List.append_assoc] at hRest
      rw [Cursor.token?, skip_blank hBlank, ← Cursor.token?]
      exact hRest
  | @comma before rest tokens hRest _ =>
      cases hTokens
      have hSkip : (Cursor.mk before.length (',' :: rest)).skip =
          ⟨before.length, ',' :: rest⟩ :=
        rfl
      exact ⟨before, before ++ [','], rest,
        by simp [Cursor.token?, hSkip, Cursor.forth], rfl,
        List.prefix_append _ _, rfl, hRest, by simp⟩
  | @run before run rest tokens hSome hInner hEnd hRest _ =>
      cases hTokens
      have hFirst :
          (run ++ rest).head?.any Word.isBlank = false ∧
            (run ++ rest).head? ≠ some ',' := by
        obtain ⟨c, run, rfl⟩ :=
          List.exists_cons_of_ne_nil hSome
        have hInnerFirst := (isInner_iff c).1 (hInner c (by simp))
        simpa using hInnerFirst
      have hLater : rest.head?.any isInner = false := by
        cases rest with
        | nil => rfl
        | cons c rest => exact hEnd c rfl
      have hSkip :
          (Cursor.mk before.length (run ++ rest)).skip =
            ⟨before.length, run ++ rest⟩ := by
        rw [Cursor.skip, Cursor.takeWhile_of_any_head? hFirst.1]
        rfl
      have hRun :
          (Cursor.mk before.length (run ++ rest)).run = run :=
        Cursor.run_eq_of_isInner rfl hInner hLater
      refine ⟨before, before ++ run, rest, ?_, by rw [hSkip],
        List.prefix_append _ _, rfl, hRest, by simp⟩
      rw [Cursor.token?, hSkip]
      dsimp only
      rw [if_neg hFirst.2, hRun, if_neg (by simpa using hSome)]
      simp [Cursor.forth]

end Token

------------------------------------------------------------
-- Runs of stages
------------------------------------------------------------

/- Tokens that all may come lead from a stage to another. -/
inductive Stage.Leads :
    Stage → List Token → Stage → Prop where
  | nil {stage : Stage} : Leads stage [] stage
  | cons
      {stage next last : Stage}
      {t : Token}
      {rest : List Token}
      (hNext : stage.next t = some next)
      (hRest : Leads next rest last) :
      Leads stage (t :: rest) last

/- All tokens may come, or one is the first that may not. -/
theorem Stage.leads_or_stops
    (stage : Stage)
    (tokens : List Token) :
    (∃ last, Leads stage tokens last) ∨
      ∃ earlier t later last,
        tokens = earlier ++ t :: later ∧
          Leads stage earlier last ∧ last.next t = none := by
  induction tokens generalizing stage with
  | nil => exact .inl ⟨stage, .nil⟩
  | cons t rest ih =>
      cases hNext : stage.next t with
      | none =>
          exact .inr ⟨[], t, rest, stage, rfl, .nil, hNext⟩
      | some next =>
          rcases ih next with ⟨last, hLeads⟩ |
            ⟨earlier, other, later, last, rfl, hLeads, hNone⟩
          · exact .inl ⟨last, .cons hNext hLeads⟩
          · exact .inr ⟨t :: earlier, other, later, last, rfl,
              .cons hNext hLeads, hNone⟩

/- Reading passes over tokens that may come. -/
theorem Stage.Leads.readFrom
    {stage last : Stage}
    {tokens : List Token}
    (hLeads : stage.Leads tokens last)
    (draft : Draft)
    (finish : Position) :
    ∃ longer : Draft, ∀ more,
      draft.readFrom stage finish (tokens ++ more) =
        longer.readFrom last finish more := by
  induction hLeads generalizing draft with
  | nil => exact ⟨draft, fun _ => rfl⟩
  | @cons stage next last t rest hNext _ ih =>
      obtain ⟨longer, hLonger⟩ := ih (draft.record stage t)
      refine ⟨longer, fun more => ?_⟩
      simp [Draft.readFrom, hNext, hLonger]

------------------------------------------------------------
-- The grammar and the stages
------------------------------------------------------------

/- The place of a token does not matter for what follows. -/
theorem Stage.next_unplaced
    (stage : Stage)
    (t : Token) :
    stage.next (.unplaced t.text) = stage.next t := by
  cases stage <;> rfl

/-
  What the stages say of the text that comes, they say of the
  tokens that are placed in it.
-/
theorem Stage.Reads.readFrom
    {stage : Stage}
    {before cs : List Char}
    {fault : Option Nat}
    {tokens : List Token}
    (hReads : stage.Reads ⟨before.length, cs⟩ fault)
    (hPlaced : Token.Placed before cs tokens)
    (draft : Draft) :
    (fault = none → ∃ whole,
      draft.readFrom stage (.behind (before ++ cs)) tokens =
        .ok whole) ∧
      ∀ offset, fault = some offset → ∃ last,
        draft.readFrom stage (.behind (before ++ cs)) tokens =
          .error (.unexpected last
            (.behind ((before ++ cs).take offset))) := by
  induction tokens generalizing stage before cs draft with
  | nil =>
      have ⟨hNone, hOffset⟩ := hPlaced.token?_nil
      cases hReads with
      | ends _ =>
          have hAll : (before ++ cs).take
              (before ++ cs).length = before ++ cs :=
            List.take_length
          rw [List.length_append] at hAll hOffset
          cases hEnd : stage.mayEnd <;>
            simp [Draft.readFrom, hEnd, hOffset, hAll]
      | stops hToken _ =>
          rw [hNone] at hToken
          cases hToken
      | goes hToken _ _ =>
          rw [hNone] at hToken
          cases hToken
  | cons t later ih =>
      obtain ⟨front, longer, rest, hToken, hOffset, hFront,
        hPosition, hRest, hWhole⟩ := hPlaced.token?_cons
      cases hReads with
      | ends hNone =>
          rw [hNone] at hToken
          cases hToken
      | stops hOther hNone =>
          rw [hToken] at hOther
          cases hOther
          rw [Stage.next_unplaced] at hNone
          have hTake := List.prefix_iff_eq_take.1 hFront
          simp [Draft.readFrom, hNone, hOffset, hPosition,
            ← hTake]
      | goes hOther hNext hBehind =>
          rw [hToken] at hOther
          cases hOther
          rw [Stage.next_unplaced] at hNext
          rw [← hWhole, Draft.readFrom, hNext]
          exact ih hBehind hRest _

/-
  The tokens of a text are read if the grammar finds it.  Else
  they are at fault at the furthest place at which a rule of
  the grammar fails.
-/
theorem Draft.ofTokens_of_grammar (text : String) :
    ((Grammar.statement.run (.start text)).found ≠ none →
      ∃ whole, ofTokens (Token.scan text).1
        (Token.scan text).2 = .ok whole) ∧
    ((Grammar.statement.run (.start text)).found = none →
      ∃ last, ofTokens (Token.scan text).1
        (Token.scan text).2 =
          .error (.unexpected last (.behind
            (text.toList.take (Grammar.statement.run
              (.start text)).furthest)))) := by
  have hReads : Stage.start.Reads
      ⟨([] : List Char).length, text.toList⟩
      (Grammar.statement.run (.start text)).fault :=
    Grammar.statement_reads text
  obtain ⟨hWhole, hFault⟩ :=
    hReads.readFrom (Token.placed_scan text) .empty
  rw [ofTokens, Token.finish_scan]
  constructor
  · intro hFound
    refine hWhole (if_pos ?_)
    exact Option.isSome_iff_ne_none.2 hFound
  · intro hNone
    refine hFault _ (if_neg ?_)
    rw [hNone]
    exact Bool.false_ne_true

/- The grammar finds the texts that spell a phrase. -/
theorem Grammar.found_iff_spelled
    {text : String}
    {tokens : List String}
    (hTokens : Token.Splits text.toList tokens) :
    (statement.run (.start text)).found ≠ none ↔
      ∃ phrase : QueryPhrase, phrase.SpelledBy tokens := by
  obtain rfl := Token.splits_scan_iff.1 hTokens
  have hAgrees := Draft.ofTokens_of_grammar text
  constructor
  · intro hFound
    obtain ⟨whole, hWhole⟩ := hAgrees.1 hFound
    obtain ⟨phrase, hSpelled, -⟩ :=
      Draft.ofTokens_ok_iff.1 hWhole
    exact ⟨phrase, hSpelled⟩
  · rintro ⟨phrase, hSpelled⟩ hNone
    obtain ⟨last, hFault⟩ := hAgrees.2 hNone
    rw [Draft.ofTokens_ok_iff.2 ⟨phrase, hSpelled, rfl⟩]
      at hFault
    cases hFault

/- Tokens are at fault where a rule fails furthest behind. -/
theorem Draft.place_of_fault
    {text : String}
    {stage : Stage}
    {position : Position}
    (hFault : ofTokens (Token.scan text).1
      (Token.scan text).2 =
        .error (.unexpected stage position)) :
    position = .behind (text.toList.take
      (Grammar.statement.run (.start text)).furthest) := by
  have hAgrees := ofTokens_of_grammar text
  by_cases hNone :
      (Grammar.statement.run (.start text)).found = none
  · obtain ⟨last, hLast⟩ := hAgrees.2 hNone
    rw [hLast] at hFault
    cases hFault
    rfl
  · obtain ⟨whole, hWhole⟩ := hAgrees.1 hNone
    rw [hWhole] at hFault
    cases hFault

------------------------------------------------------------
-- Ends of phrases
------------------------------------------------------------

/- Words that lead from a stage to the end of a phrase. -/
def Stage.ending : Stage → List String
  | start => ["select", "a", "from", "t"]
  | column => ["a", "from", "t"]
  | selected => ["from", "t"]
  | source => ["t"]
  | criterion => ["a", "=", "@p"]
  | operator => ["=", "@p"]
  | parameter => ["@p"]
  | orderBy => ["by", "a"]
  | orderColumn => ["a"]
  | limit => ["1"]
  | table | condition | ordered | directed | limited => []

theorem Token.map_text_unplaced (words : List String) :
    (words.map unplaced).map text = words := by
  rw [List.map_map]
  exact List.map_id words

theorem Draft.readFrom_ending
    (draft : Draft)
    (stage : Stage)
    (finish : Position) :
    ∃ whole, draft.readFrom stage finish
      (stage.ending.map Token.unplaced) = .ok whole := by
  have hSpells (word : String) :
      (Token.unplaced word).spells word = true := by
    simp [Token.spells, Token.unplaced, Word.sameLetters]
  have hComma (word : String) :
      (Token.unplaced word).isComma = (word == ",") :=
    rfl
  cases stage <;>
    simp [Stage.ending, readFrom, Stage.next, Stage.name,
      Stage.mayEnd, hSpells, hComma]

------------------------------------------------------------
-- Words behind a text
------------------------------------------------------------

namespace Token

/- Texts split apart where no run can go on. -/
theorem Splits.append
    {front back : List Char}
    {tokens more : List String}
    (hFront : Splits front tokens)
    (hBack : Splits back more)
    (hApart : ∀ c ∈ back.head?, isInner c = false) :
    Splits (front ++ back) (tokens ++ more) := by
  induction hFront with
  | nil => exact hBack
  | blank hBlank _ ih => exact .blank hBlank ih
  | comma _ ih => exact .comma ih
  | @run run rest tokens hSome hInner hEnd _ ih =>
      rw [List.append_assoc]
      refine .run hSome hInner ?_ ih
      cases rest with
      | nil => exact hApart
      | cons c rest => exact hEnd

/- Words, each behind a blank. -/
def spaced (words : List String) : List Char :=
  words.flatMap fun word => ' ' :: word.toList

theorem head?_spaced (words : List String) :
    ∀ c ∈ (spaced words).head?, isInner c = false := by
  cases words with
  | nil => simp [spaced]
  | cons word words => simp [spaced, isInner, Word.isBlank]

theorem splits_spaced
    {words : List String}
    (hWords : ∀ word ∈ words, word.toList ≠ [] ∧
      ∀ c ∈ word.toList, isInner c = true) :
    Splits (spaced words) words := by
  induction words with
  | nil => exact .nil
  | cons word words ih =>
      rw [List.forall_mem_cons] at hWords
      rcases hWords with ⟨⟨hSome, hInner⟩, hWords⟩
      have hRun := Splits.run hSome hInner
        (head?_spaced words) (ih hWords)
      rw [String.ofList_toList] at hRun
      exact .blank rfl hRun

end Token

theorem Stage.splits_ending (stage : Stage) :
    Token.Splits (Token.spaced stage.ending) stage.ending := by
  have hWords : (stage.ending.all fun word =>
      !word.toList.isEmpty &&
        word.toList.all Token.isInner) = true := by
    cases stage <;> decide
  exact Token.splits_spaced (by simpa using hWords)

------------------------------------------------------------
-- Beginnings of statements
------------------------------------------------------------

/-
  Do the tokens begin a statement?  There is a text that has
  them first, and all its tokens spell a phrase.
-/
def Begins (tokens : List String) : Prop :=
  ∃ (statement : String) (more : List String)
      (phrase : QueryPhrase),
    Token.Splits statement.toList (tokens ++ more) ∧
      phrase.SpelledBy (tokens ++ more)

variable {last : Stage} {tokens : List Token}

/- What may be read can be written on to a statement. -/
theorem begins_of_leads
    {cs : List Char}
    (hLeads : Stage.start.Leads tokens last)
    (hSplits : Token.Splits cs (tokens.map Token.text)) :
    Begins (tokens.map Token.text) := by
  obtain ⟨longer, hLonger⟩ :=
    hLeads.readFrom .empty .start
  obtain ⟨whole, hWhole⟩ := longer.readFrom_ending last .start
  have hRead : Draft.ofTokens
      (tokens ++ last.ending.map Token.unplaced) .start =
        .ok whole := by
    rw [Draft.ofTokens, hLonger, hWhole]
  obtain ⟨phrase, hSpelled, -⟩ :=
    Draft.ofTokens_ok_iff.1 hRead
  rw [List.map_append, Token.map_text_unplaced] at hSpelled
  refine ⟨String.ofList (cs ++ Token.spaced last.ending),
    last.ending, phrase, ?_, hSpelled⟩
  rw [String.toList_ofList]
  exact hSplits.append last.splits_ending
    (Token.head?_spaced _)

/- No statement goes on with a token that may not come. -/
theorem not_begins_of_leads
    {t : Token}
    (hLeads : Stage.start.Leads tokens last)
    (hNone : last.next t = none) :
    ¬Begins (tokens.map Token.text ++ [t.text]) := by
  rintro ⟨_, more, phrase, -, hSpelled⟩
  have hTexts : tokens.map Token.text ++ [t.text] ++ more =
      (tokens ++ t :: more.map Token.unplaced).map
        Token.text := by
    rw [List.map_append, List.map_cons,
      Token.map_text_unplaced, List.append_assoc]
    rfl
  rw [hTexts] at hSpelled
  have hRead : Draft.ofTokens
      (tokens ++ t :: more.map Token.unplaced) .start =
        .ok phrase.draft :=
    Draft.ofTokens_ok_iff.2 ⟨phrase, hSpelled, rfl⟩
  obtain ⟨longer, hLonger⟩ := hLeads.readFrom .empty .start
  rw [Draft.ofTokens, hLonger, Draft.readFrom, hNone] at hRead
  cases hRead

------------------------------------------------------------
-- Places of faults
------------------------------------------------------------

/- What is at fault in the tokens is at fault in the text. -/
theorem Select.read_of_fault
    {text : String}
    {fault : ParseFault}
    (hSome : (Token.scan text).1 ≠ [])
    (hFault : Draft.ofTokens (Token.scan text).1
      (Token.scan text).2 = .error fault) :
    read text = .error (.parse fault text) := by
  have hWords : (Word.tokens text).isEmpty = false := by
    rw [List.isEmpty_eq_false_iff]
    intro hNone
    exact hSome (Token.scan_of_tokens hNone)
  simp [read, hWords, hFault]

/-
  Reading a text that is no statement fails at the furthest
  place at which a rule of the grammar fails.  This is in
  front of the first token with which the tokens before it
  begin no statement, or behind the whole text if all its
  tokens begin one.
-/
theorem Select.read_fails_where_no_statement_goes_on
    {text : String}
    {tokens : List String}
    (hTokens : Token.Splits text.toList tokens)
    (hSome : tokens ≠ [])
    (hForm : ¬∃ phrase : QueryPhrase,
      phrase.SpelledBy tokens) :
    ∃ fault position,
      read text = .error (.parse fault text) ∧
      fault.position? = some position ∧
      (Grammar.statement.run (.start text)).found = none ∧
      position = .behind (text.toList.take
        (Grammar.statement.run (.start text)).furthest) ∧
      ((Begins tokens ∧
          position = .behind text.toList) ∨
        ∃ earlier token later before after,
          tokens = earlier ++ token :: later ∧
          Token.Stands text.toList earlier token later
            before after ∧
          Begins earlier ∧
          ¬Begins (earlier ++ [token]) ∧
          position = .behind before) := by
  have hNotFound :
      (Grammar.statement.run (.start text)).found = none := by
    by_contra hFound
    exact hForm ((Grammar.found_iff_spelled hTokens).1 hFound)
  obtain rfl := Token.splits_scan_iff.1 hTokens
  rw [Ne, List.map_eq_nil_iff] at hSome
  rcases Stage.leads_or_stops .start (Token.scan text).1 with
    ⟨last, hLeads⟩ |
      ⟨earlier, t, later, last, hScan, hLeads, hNone⟩
  · obtain ⟨longer, hLonger⟩ :=
      hLeads.readFrom .empty (Token.scan text).2
    have hAll := hLonger []
    rw [List.append_nil] at hAll
    have hEnd : last.mayEnd = false := by
      by_contra hMay
      rw [Bool.not_eq_false] at hMay
      rw [Draft.readFrom, if_pos hMay] at hAll
      obtain ⟨phrase, hSpelled, -⟩ :=
        Draft.ofTokens_ok_iff.1 hAll
      exact hForm ⟨phrase, hSpelled⟩
    rw [Draft.readFrom, hEnd] at hAll
    exact ⟨_, _, read_of_fault hSome hAll, rfl,
      hNotFound, Draft.place_of_fault hAll, .inl
      ⟨begins_of_leads hLeads hTokens,
        Token.finish_scan text⟩⟩
  · obtain ⟨longer, hLonger⟩ :=
      hLeads.readFrom .empty (Token.scan text).2
    have hStop := hLonger (t :: later)
    rw [Draft.readFrom, hNone, ← hScan] at hStop
    have hPlaced := Token.placed_scan text
    rw [hScan] at hPlaced
    obtain ⟨before, after, hStands, hPosition⟩ :=
      hPlaced.stands
    refine ⟨_, _, read_of_fault hSome hStop, rfl,
      hNotFound, Draft.place_of_fault hStop, .inr
      ⟨earlier.map Token.text, t.text,
        later.map Token.text, before, after,
        by rw [hScan]; simp, hStands,
        begins_of_leads hLeads hStands.earlier,
        not_begins_of_leads hLeads hNone, hPosition⟩⟩

/- An operator has to come where the comma stands. -/
def strayComma : String :=
  "select caf\u00E9\nfrom t where\r\n\t\u20AC , x by @p"

theorem Select.read_fails_at_strayComma :
    read strayComma =
        .error (.parse (.unexpected .operator ⟨3, 4⟩)
          strayComma) ∧
      (Grammar.statement.run (.start strayComma)).found =
        none ∧
      ⟨3, 4⟩ = Position.behind (strayComma.toList.take
        (Grammar.statement.run
          (.start strayComma)).furthest) ∧
      ∃ earlier token later before after,
        (Token.scan strayComma).1.map Token.text =
          earlier ++ token :: later ∧
        Token.Stands strayComma.toList earlier token later
          before after ∧
        Begins earlier ∧
        ¬Begins (earlier ++ [token]) ∧
        ⟨3, 4⟩ = Position.behind before := by
  have hDraft : Draft.ofTokens (Token.scan strayComma).1
      (Token.scan strayComma).2 =
        .error (.unexpected .operator ⟨3, 4⟩) := by
    decide +kernel
  have hForm : ¬∃ phrase : QueryPhrase, phrase.SpelledBy
      ((Token.scan strayComma).1.map Token.text) := by
    rintro ⟨phrase, hSpelled⟩
    have hOk : Draft.ofTokens (Token.scan strayComma).1
        (Token.scan strayComma).2 = .ok phrase.draft :=
      Draft.ofTokens_ok_iff.2 ⟨phrase, hSpelled, rfl⟩
    rw [hDraft] at hOk
    cases hOk
  have hRead : read strayComma =
      .error (.parse (.unexpected .operator ⟨3, 4⟩)
        strayComma) := by
    decide +kernel
  rcases read_fails_where_no_statement_goes_on
    (Token.splits_scan_iff.2 rfl) (by decide +kernel) hForm with
    ⟨fault, position, hFault, hPosition, hNone, hFurthest,
      hPlace⟩
  rw [hRead] at hFault
  cases hFault
  cases hPosition
  refine ⟨hRead, hNone, hFurthest, hPlace.resolve_left ?_⟩
  rintro ⟨-, hEnd⟩
  revert hEnd
  decide +kernel

end SparseTables
