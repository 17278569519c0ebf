import SparseTables.Query.Stage

/-
  This file says what the tokens of a text are: its commas,
  and the runs of other characters that are no blanks, each
  as long as it can be.

  The scan carries the place that it has reached, and a token
  keeps the place at which its run began.  Both are the
  places behind what was read: they count its lines, and the
  characters of its last line.

  Main declarations:
    * `Token.Splits`
    * `Token.splits_iff`
    * `Token.splits_scan_iff`
    * `Position.behind`
    * `Token.Placed`
    * `Token.placed_scan`
    * `Token.Stands`
-/

namespace SparseTables

namespace Token

------------------------------------------------------------
-- What the tokens are
------------------------------------------------------------

/- The characters of runs. -/
def isInner (c : Char) : Bool :=
  !Word.isBlank c && c != ','

/-
  A text splits into tokens.  Blanks are dropped, a comma
  stands alone, and a run ends only where it has to.
-/
inductive Splits : List Char → List String → Prop where
  | nil : Splits [] []
  | blank
      {c : Char}
      {rest : List Char}
      {tokens : List String}
      (hBlank : Word.isBlank c = true)
      (hRest : Splits rest tokens) :
      Splits (c :: rest) tokens
  | comma
      {rest : List Char}
      {tokens : List String}
      (hRest : Splits rest tokens) :
      Splits (',' :: rest) ("," :: tokens)
  | run
      {run rest : List Char}
      {tokens : List String}
      (hSome : run ≠ [])
      (hInner : ∀ c ∈ run, isInner c = true)
      (hEnd : ∀ c ∈ rest.head?, isInner c = false)
      (hRest : Splits rest tokens) :
      Splits (run ++ rest) (String.ofList run :: tokens)

------------------------------------------------------------
-- Texts of scanned tokens
------------------------------------------------------------

/-
  The texts of the tokens that are scanned behind an open
  run, which holds its characters in reverse.
-/
def textsFrom (run : List Char) : List Char → List String
  | [] => Word.emit run []
  | c :: rest =>
      if Word.isBlank c then
        Word.emit run (textsFrom [] rest)
      else if c == ',' then
        Word.emit run ("," :: textsFrom [] rest)
      else
        textsFrom (c :: run) rest

theorem map_text_close
    (run : List Char)
    (began : Position)
    (later : List Token × Position) :
    (close run began later).1.map text =
      Word.emit run (later.1.map text) := by
  unfold close Word.emit
  split <;> rfl

/- The places of tokens do not matter for their texts. -/
theorem map_text_scanFrom
    (run : List Char)
    (began here : Position)
    (cs : List Char) :
    (scanFrom run began here cs).1.map text =
      textsFrom run cs := by
  induction cs generalizing run began here with
  | nil => exact map_text_close run began ([], here)
  | cons c rest ih =>
      simp only [scanFrom, textsFrom]
      split
      · rw [map_text_close, ih]
      · split
        · rw [map_text_close, List.map_cons, ih]
        · exact ih _ _ _

theorem isInner_iff (c : Char) :
    isInner c = true ↔ Word.isBlank c = false ∧ c ≠ ',' := by
  simp [isInner]

theorem emit_of_ne_nil
    {run : List Char}
    (hSome : run ≠ [])
    (later : List String) :
    Word.emit run later =
      String.ofList run.reverse :: later := by
  simp [Word.emit, hSome]

/- Inner characters extend the open run. -/
theorem textsFrom_append
    {inner : List Char}
    (hInner : ∀ c ∈ inner, isInner c = true)
    (run rest : List Char) :
    textsFrom run (inner ++ rest) =
      textsFrom (inner.reverse ++ run) rest := by
  induction inner generalizing run with
  | nil => rfl
  | cons c inner ih =>
      rw [List.forall_mem_cons, isInner_iff] at hInner
      rcases hInner with ⟨⟨hBlank, hComma⟩, hInner⟩
      rw [List.cons_append, textsFrom]
      simp [hBlank, hComma, ih hInner]

/- Where no inner character follows, a run is a token. -/
theorem textsFrom_of_end
    {run rest : List Char}
    (hSome : run ≠ [])
    (hEnd : ∀ c ∈ rest.head?, isInner c = false) :
    textsFrom run rest =
      String.ofList run.reverse :: textsFrom [] rest := by
  cases rest with
  | nil => exact emit_of_ne_nil hSome []
  | cons c rest =>
      have hOuter : isInner c = false := hEnd c rfl
      by_cases hBlank : Word.isBlank c = true
      · simp [textsFrom, hBlank, Word.emit, hSome]
      · have hComma : c = ',' := by
          rw [Bool.not_eq_true] at hBlank
          simpa [isInner, hBlank] using hOuter
        simp [textsFrom, hComma, Word.emit, Word.isBlank,
          hSome]

------------------------------------------------------------
-- Scanning splits
------------------------------------------------------------

/- An open run is a token of what was read and comes. -/
theorem splits_textsFrom
    (run : List Char)
    (hRun : ∀ c ∈ run, isInner c = true)
    (cs : List Char) :
    Splits (run.reverse ++ cs) (textsFrom run cs) := by
  have hClosed {run rest : List Char} {tokens : List String}
      (hRun : ∀ c ∈ run, isInner c = true)
      (hEnd : ∀ c ∈ rest.head?, isInner c = false)
      (hRest : Splits rest tokens) :
      Splits (run.reverse ++ rest)
        (Word.emit run tokens) := by
    by_cases hNone : run = []
    · subst hNone
      exact hRest
    · rw [emit_of_ne_nil hNone]
      exact .run (by simpa using hNone) (by simpa using hRun)
        hEnd hRest
  induction cs generalizing run with
  | nil => exact hClosed hRun (by simp) .nil
  | cons c rest ih =>
      have hRest : Splits rest (textsFrom [] rest) :=
        ih [] (by simp)
      rw [textsFrom]
      by_cases hBlank : Word.isBlank c = true
      · rw [if_pos hBlank]
        exact hClosed hRun (by simp [isInner, hBlank])
          (.blank hBlank hRest)
      · rw [if_neg hBlank]
        by_cases hComma : c = ','
        · subst hComma
          exact hClosed hRun (by simp [isInner])
            (.comma hRest)
        · have hInner : isInner c = true :=
            (isInner_iff c).2 ⟨by simpa using hBlank, hComma⟩
          have hLonger := ih (c :: run)
            (List.forall_mem_cons.2 ⟨hInner, hRun⟩)
          rw [if_neg (by simpa using hComma)]
          simpa using hLonger

/- A text splits into its tokens and in no other way. -/
theorem splits_iff
    {cs : List Char}
    {tokens : List String} :
    Splits cs tokens ↔ tokens = textsFrom [] cs := by
  constructor
  · intro hSplits
    induction hSplits with
    | nil => rfl
    | blank hBlank _ ih =>
        simp [textsFrom, hBlank, Word.emit, ih]
    | comma _ ih =>
        simp [textsFrom, Word.isBlank, Word.emit, ih]
    | run hSome hInner hEnd _ ih =>
        rw [textsFrom_append hInner, List.append_nil,
          textsFrom_of_end (by simpa using hSome) hEnd,
          List.reverse_reverse, ih]
  · intro hTokens
    rw [hTokens]
    exact splits_textsFrom [] (by simp) cs

/- The scanned tokens are those that the text splits into. -/
theorem splits_scan_iff
    {text : String}
    {tokens : List String} :
    Splits text.toList tokens ↔
      tokens = (scan text).1.map Token.text := by
  rw [splits_iff, scan, map_text_scanFrom]

------------------------------------------------------------
-- Blank texts
------------------------------------------------------------

/- Only blanks hold no token. -/
theorem isBlank_of_tokensFrom
    {run cs : List Char}
    (hNone : Word.tokensFrom run cs = []) :
    run = [] ∧ ∀ c ∈ cs, Word.isBlank c = true := by
  induction cs generalizing run with
  | nil =>
      by_cases hRun : run = []
      · exact ⟨hRun, by simp⟩
      · simp [Word.tokensFrom, Word.emit, hRun] at hNone
  | cons c rest ih =>
      rw [Word.tokensFrom] at hNone
      by_cases hBlank : Word.isBlank c = true
      · rw [if_pos hBlank] at hNone
        by_cases hRun : run = []
        · simp only [hRun, Word.emit, List.isEmpty_nil,
            if_true] at hNone
          exact ⟨hRun, List.forall_mem_cons.2
            ⟨hBlank, (ih hNone).2⟩⟩
        · simp [Word.emit, hRun] at hNone
      · rw [if_neg hBlank] at hNone
        exact absurd (ih hNone).1 (List.cons_ne_nil _ _)

theorem textsFrom_of_isBlank
    {cs : List Char}
    (hBlank : ∀ c ∈ cs, Word.isBlank c = true) :
    textsFrom [] cs = [] := by
  induction cs with
  | nil => rfl
  | cons c rest ih =>
      rw [List.forall_mem_cons] at hBlank
      simp [textsFrom, hBlank.1, Word.emit, ih hBlank.2]

/- A text without a run between blanks has no tokens. -/
theorem scan_of_tokens
    {text : String}
    (hNone : Word.tokens text = []) :
    (scan text).1 = [] := by
  have hTexts : (scan text).1.map Token.text = [] := by
    rw [scan, map_text_scanFrom]
    exact textsFrom_of_isBlank (isBlank_of_tokensFrom hNone).2
  exact List.map_eq_nil_iff.1 hTexts

end Token

------------------------------------------------------------
-- Places behind characters
------------------------------------------------------------

namespace Position

/-
  The place behind characters.  Its line is one more than the
  line feeds, and its column one more than the characters
  behind the last of them.
-/
def behind (before : List Char) : Position where
  line := before.count '\n' + 1
  column :=
    (before.reverse.takeWhile fun c => c != '\n').length + 1

theorem behind_concat (before : List Char) (c : Char) :
    behind (before ++ [c]) = (behind before).after c := by
  by_cases hFeed : c = '\n'
  · subst hFeed
    simp [behind, after]
  · simp [behind, after, hFeed, List.count_append]

end Position

namespace Token

open Position (behind)

------------------------------------------------------------
-- Tokens behind characters
------------------------------------------------------------

/-
  Behind some characters, the others split into tokens, and
  each stands where its own characters begin.
-/
inductive Placed :
    List Char → List Char → List Token → Prop where
  | nil {before : List Char} : Placed before [] []
  | blank
      {before rest : List Char}
      {c : Char}
      {tokens : List Token}
      (hBlank : Word.isBlank c = true)
      (hRest : Placed (before ++ [c]) rest tokens) :
      Placed before (c :: rest) tokens
  | comma
      {before rest : List Char}
      {tokens : List Token}
      (hRest : Placed (before ++ [',']) rest tokens) :
      Placed before (',' :: rest)
        (⟨",", behind before⟩ :: tokens)
  | run
      {before run rest : List Char}
      {tokens : List Token}
      (hSome : run ≠ [])
      (hInner : ∀ c ∈ run, isInner c = true)
      (hEnd : ∀ c ∈ rest.head?, isInner c = false)
      (hRest : Placed (before ++ run) rest tokens) :
      Placed before (run ++ rest)
        (⟨String.ofList run, behind before⟩ :: tokens)

/- Closing a run puts its token in front. -/
theorem placed_close
    {before run rest : List Char}
    {later : List Token × Position}
    (hRun : ∀ c ∈ run, isInner c = true)
    (hEnd : ∀ c ∈ rest.head?, isInner c = false)
    (hRest : Placed (before ++ run.reverse) rest later.1) :
    Placed before (run.reverse ++ rest)
      (close run (behind before) later).1 := by
  by_cases hNone : run = []
  · subst hNone
    simpa [close] using hRest
  · simp only [close, List.isEmpty_iff, hNone, if_false]
    exact .run (by simpa using hNone) (by simpa using hRun)
      hEnd hRest

/- An open run began behind what was read before it. -/
theorem placed_scanFrom
    (before run : List Char)
    (hRun : ∀ c ∈ run, isInner c = true)
    (cs : List Char) :
    Placed before (run.reverse ++ cs)
      (scanFrom run (behind before)
        (behind (before ++ run.reverse)) cs).1 := by
  induction cs generalizing before run with
  | nil => exact placed_close hRun (by simp) .nil
  | cons c rest ih =>
      have hNext : (behind (before ++ run.reverse)).after c =
          behind (before ++ run.reverse ++ [c]) :=
        (Position.behind_concat _ c).symm
      have hRest : Placed (before ++ run.reverse ++ [c]) rest
          (scanFrom []
            (behind (before ++ run.reverse ++ [c]))
            (behind (before ++ run.reverse ++ [c]))
            rest).1 := by
        simpa using ih (before ++ run.reverse ++ [c]) []
          (by simp)
      simp only [scanFrom, hNext]
      by_cases hBlank : Word.isBlank c = true
      · rw [if_pos hBlank]
        exact placed_close hRun (by simp [isInner, hBlank])
          (.blank hBlank hRest)
      · rw [if_neg hBlank]
        by_cases hComma : c = ','
        · subst hComma
          exact placed_close hRun (by simp [isInner])
            (.comma hRest)
        · have hInner : isInner c = true :=
            (isInner_iff c).2 ⟨by simpa using hBlank, hComma⟩
          have hLonger := ih before (c :: run)
            (List.forall_mem_cons.2 ⟨hInner, hRun⟩)
          rw [if_neg (by simpa using hComma)]
          by_cases hNone : run = []
          · simpa [hNone] using hLonger
          · simpa [hNone] using hLonger

theorem placed_scan (text : String) :
    Placed [] text.toList (scan text).1 :=
  placed_scanFrom [] [] (by simp) text.toList

theorem finish_close
    (run : List Char)
    (began : Position)
    (later : List Token × Position) :
    (close run began later).2 = later.2 := by
  unfold close
  split <;> rfl

theorem finish_scanFrom
    (run before : List Char)
    (began : Position)
    (cs : List Char) :
    (scanFrom run began (behind before) cs).2 =
      behind (before ++ cs) := by
  induction cs generalizing run before began with
  | nil => simp [scanFrom, finish_close]
  | cons c rest ih =>
      simp only [scanFrom, ← Position.behind_concat]
      split
      · rw [finish_close, ih, List.append_assoc]
        rfl
      · split
        · rw [finish_close, ih, List.append_assoc]
          rfl
        · rw [ih, List.append_assoc]
          rfl

/- The scan ends behind the whole text. -/
theorem finish_scan (text : String) :
    (scan text).2 = behind text.toList :=
  finish_scanFrom [] [] .start text.toList

------------------------------------------------------------
-- Tokens between characters
------------------------------------------------------------

/-
  A token stands between characters that split into the
  tokens before it and those behind it.
-/
structure Stands
    (cs : List Char)
    (earlier : List String)
    (token : String)
    (later : List String)
    (before after : List Char) : Prop where
  chars : cs = before ++ token.toList ++ after
  earlier : Splits before earlier
  later : Splits after later

theorem Placed.splits
    {before cs : List Char}
    {tokens : List Token}
    (hPlaced : Placed before cs tokens) :
    Splits cs (tokens.map text) := by
  induction hPlaced with
  | nil => exact .nil
  | blank hBlank _ ih => exact .blank hBlank ih
  | comma _ ih => exact .comma ih
  | run hSome hInner hEnd _ ih =>
      exact .run hSome hInner hEnd ih

/- Every token stands behind those that come before it. -/
theorem Placed.stands
    {front cs : List Char}
    {earlier later : List Token}
    {t : Token}
    (hPlaced : Placed front cs (earlier ++ t :: later)) :
    ∃ before after,
      Stands cs (earlier.map text) t.text (later.map text)
        before after ∧
      t.position = behind (front ++ before) := by
  generalize hTokens : earlier ++ t :: later = tokens
    at hPlaced
  induction hPlaced generalizing earlier with
  | nil => simp at hTokens
  | @blank front rest c tokens hBlank _ ih =>
      obtain ⟨before, after, hStands, hPosition⟩ := ih hTokens
      exact ⟨c :: before, after,
        ⟨by simp [hStands.chars], .blank hBlank hStands.earlier,
          hStands.later⟩,
        by simpa using hPosition⟩
  | @comma front rest tokens hRest ih =>
      rcases List.append_eq_cons_iff.1 hTokens with
        ⟨rfl, hFirst⟩ | ⟨fewer, rfl, hFewer⟩
      · cases hFirst
        exact ⟨[], rest, ⟨by simp, .nil, hRest.splits⟩,
          by simp⟩
      · obtain ⟨before, after, hStands, hPosition⟩ :=
          ih hFewer.symm
        exact ⟨',' :: before, after,
          ⟨by simp [hStands.chars], .comma hStands.earlier,
            hStands.later⟩,
          by simpa using hPosition⟩
  | @run front run rest tokens hSome hInner hEnd hRest ih =>
      rcases List.append_eq_cons_iff.1 hTokens with
        ⟨rfl, hFirst⟩ | ⟨fewer, rfl, hFewer⟩
      · cases hFirst
        exact ⟨[], rest, ⟨by simp, .nil, hRest.splits⟩,
          by simp⟩
      · obtain ⟨before, after, hStands, hPosition⟩ :=
          ih hFewer.symm
        have hShorter :
            ∀ c ∈ before.head?, isInner c = false := by
          cases before with
          | nil => simp
          | cons c before =>
              rw [hStands.chars] at hEnd
              simpa using hEnd
        exact ⟨run ++ before, after,
          ⟨by simp [hStands.chars],
            .run hSome hInner hShorter hStands.earlier,
            hStands.later⟩,
          by simpa using hPosition⟩

end Token

end SparseTables
