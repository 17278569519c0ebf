import SparseTables.Proofs.Query.Grammar

/-
  This file shows that reading by stages goes as far as the
  grammar of statements does.

  The grammar goes back where an expression fails, and reading
  by stages never does.  But where a part of a statement fails
  behind its first word, nothing else can begin with that
  word, so the statement fails as well, and no rule fails
  further behind.

  Main declarations:
    * `Stage.Reads`
    * `Grammar.Takes`
    * `Grammar.FailsAt`
    * `Grammar.Passes`
    * `Grammar.Finishes`
    * `Grammar.statement_reads`
-/

namespace SparseTables

------------------------------------------------------------
-- Reading by stages
------------------------------------------------------------

/-
  From a stage, the text that comes is read, or it is at fault
  at a place.
-/
inductive Stage.Reads :
    Stage → Cursor → Option Nat → Prop where
  | ends
      {stage : Stage}
      {cursor : Cursor}
      (hNone : cursor.token? = none) :
      Reads stage cursor
        (if stage.mayEnd then none
          else some cursor.skip.offset)
  | stops
      {stage : Stage}
      {cursor behind : Cursor}
      {t : Token}
      (hToken : cursor.token? = some (t, behind))
      (hNone : stage.next t = none) :
      Reads stage cursor (some cursor.skip.offset)
  | goes
      {stage later : Stage}
      {cursor behind : Cursor}
      {t : Token}
      {fault : Option Nat}
      (hToken : cursor.token? = some (t, behind))
      (hNext : stage.next t = some later)
      (hRest : Reads later behind fault) :
      Reads stage cursor fault

namespace Stage

variable {stage other : Stage} {cursor : Cursor}
  {fault : Option Nat}

/- Faults are not in front of what comes. -/
theorem Reads.le_of_fault
    (hReads : stage.Reads cursor fault)
    {offset : Nat}
    (hFault : fault = some offset) :
    cursor.skip.offset ≤ offset := by
  induction hReads with
  | ends _ =>
      split at hFault <;> cases hFault
      exact Nat.le_refl _
  | stops _ _ =>
      cases hFault
      exact Nat.le_refl _
  | goes hToken _ _ ih =>
      exact Nat.le_trans (Cursor.upto_of_token? hToken).offset
        (ih hFault)

/- What failed in front of the place was not the furthest. -/
theorem Reads.max_eq
    {offset furthest : Nat}
    (hReads : stage.Reads cursor (some offset))
    (hLe : furthest ≤ cursor.skip.offset) :
    max furthest offset = offset :=
  Nat.max_eq_right
    (Nat.le_trans hLe (hReads.le_of_fault rfl))

/- Stages with which the same may come read the same. -/
theorem Reads.of_next
    (hReads : stage.Reads cursor fault)
    (hEnd : other.mayEnd = stage.mayEnd)
    (hNext : cursor.Faces fun t =>
      other.next t = stage.next t) :
    other.Reads cursor fault := by
  cases hReads with
  | ends hNone =>
      rw [← hEnd]
      exact .ends hNone
  | stops hToken hNone =>
      exact .stops hToken ((hNext _ _ hToken).trans hNone)
  | goes hToken hSome hRest =>
      exact .goes hToken ((hNext _ _ hToken).trans hSome) hRest

/- Blanks do not matter. -/
theorem Reads.of_skip
    (hReads : stage.Reads cursor.skip fault) :
    stage.Reads cursor fault := by
  have hToken := cursor.token?_skip
  have hSkip := cursor.skip_skip
  cases hReads with
  | ends hNone =>
      rw [hSkip]
      exact .ends (hToken ▸ hNone)
  | stops hSome hNone =>
      rw [hSkip]
      exact .stops (hToken ▸ hSome) hNone
  | goes hSome hNext hRest =>
      exact .goes (hToken ▸ hSome) hNext hRest

end Stage

namespace Grammar

------------------------------------------------------------
-- Key words, names and commas
------------------------------------------------------------

/- Is an expression found where a token comes that is right? -/
structure Takes
    (part : Grammar)
    (right : Token → Bool) : Prop where
  found : ∀ cursor : Cursor,
    (part.run cursor.skip).found = cursor.after? right
  furthest : ∀ cursor : Cursor,
    (part.run cursor.skip).furthest ≤ cursor.skip.offset

variable {part first second opener body : Grammar}
  {right more : Token → Bool}
  {spelling : String}
  {stage later last : Stage}
  {cursor behind : Cursor}
  {t : Token}

/- The same of a rule, which keeps where it fails. -/
def TakesAsRule
    (part : Grammar)
    (right : Token → Bool) : Prop :=
  ∀ cursor : Cursor, part.run cursor.skip =
    .named cursor.skip (cursor.after? right)

theorem TakesAsRule.takes
    (hTakes : part.TakesAsRule right) :
    part.Takes right where
  found cursor := by
    rw [hTakes cursor]
    rfl
  furthest cursor := by
    rw [hTakes cursor]
    unfold Trial.named
    split
    · exact Nat.zero_le _
    · exact Nat.le_refl _

theorem takes_word (hKey : Word.isRun spelling = true) :
    (word spelling).TakesAsRule (Token.spells spelling) :=
  fun cursor => congrArg _ (Cursor.word?_skip hKey cursor)

theorem takes_name : name.TakesAsRule fun t => !t.isComma :=
  fun cursor => congrArg _ cursor.name?_skip

theorem takes_comma : comma.Takes Token.isComma where
  found cursor := cursor.comma?_skip
  furthest _ := Nat.zero_le _

/- What an expression takes is found. -/
theorem Takes.run_of_right
    (hTakes : part.Takes right)
    (hToken : cursor.token? = some (t, behind))
    (hRight : right t = true) :
    ∃ furthest,
      part.run cursor.skip = ⟨some behind, furthest⟩ ∧
        furthest ≤ cursor.skip.offset := by
  refine ⟨_, ?_, hTakes.furthest cursor⟩
  have hFound : (part.run cursor.skip).found = some behind := by
    rw [hTakes.found, Cursor.after?, hToken]
    exact if_pos hRight
  rw [← hFound]

/- Something else is taken where the first is not. -/
theorem takes_either
    {other : Token → Bool}
    (hFirst : first.Takes right)
    (hSecond : second.Takes other) :
    (either first second).Takes
      fun t => right t || other t where
  found cursor := by
    have hFound := hFirst.found cursor
    have hOther := hSecond.found cursor
    unfold Cursor.after? at hFound hOther ⊢
    rw [run]
    cases hToken : cursor.token? with
    | none => simp_all [Trial.since]
    | some found =>
        by_cases hRight : right found.1 = true
        · simp_all
        · simp_all [Trial.since]
  furthest cursor := by
    have hFirstLe := hFirst.furthest cursor
    have hSecondLe := hSecond.furthest cursor
    rw [run]
    cases (first.run cursor.skip).found with
    | some _ => exact hFirstLe
    | none => exact Nat.max_le.2 ⟨hFirstLe, hSecondLe⟩

theorem takes_rule (hPart : part.Takes right) :
    (rule part).Takes right where
  found cursor := by
    rw [← hPart.found, run]
    cases hFound : (part.run cursor.skip).found with
    | some _ => exact hFound
    | none => exact hFound
  furthest cursor := by
    have hLe := hPart.furthest cursor
    rw [run]
    cases (part.run cursor.skip).found with
    | some _ => exact hLe
    | none => exact Nat.max_le.2 ⟨Nat.le_refl _, hLe⟩

------------------------------------------------------------
-- Expressions that fail at once
------------------------------------------------------------

/- Does an expression fail at the token that comes? -/
def FailsAt (part : Grammar) (cursor : Cursor) : Prop :=
  ∃ furthest, part.run cursor.skip = ⟨none, furthest⟩ ∧
    furthest ≤ cursor.skip.offset

theorem Takes.failsAt
    (hTakes : part.Takes right)
    (hWrong : cursor.Faces fun t => right t = false) :
    part.FailsAt cursor := by
  refine ⟨_, ?_, hTakes.furthest cursor⟩
  have hNone : (part.run cursor.skip).found = none := by
    rw [hTakes.found, Cursor.after?]
    cases hToken : cursor.token? with
    | none => rfl
    | some found =>
        simp [hWrong _ _ hToken]
  rw [← hNone]

/- Nothing that failed before is further behind. -/
theorem FailsAt.since_eq
    (hFails : part.FailsAt cursor)
    {furthest : Nat}
    (hLe : cursor.skip.offset ≤ furthest) :
    (part.run cursor.skip).since furthest =
      ⟨none, furthest⟩ := by
  obtain ⟨further, hRun, hFurther⟩ := hFails
  have hMost : max furthest further = furthest :=
    Nat.max_eq_left (Nat.le_trans hFurther hLe)
  rw [hRun, Trial.since, hMost]

theorem run_finish_of_token?
    (hToken : cursor.token? = some (t, behind)) :
    finish.run cursor.skip = ⟨none, cursor.skip.offset⟩ := by
  have hRest : cursor.skip.rest ≠ [] := by
    intro hNone
    rw [Cursor.token?_eq_none_iff.2 hNone] at hToken
    cases hToken
  simp [run, Trial.named, hRest]

theorem failsAt_finish
    (hToken : cursor.token? = some (t, behind)) :
    finish.FailsAt cursor :=
  ⟨_, run_finish_of_token? hToken, Nat.le_refl _⟩

theorem failsAt_next
    (hFirst : first.FailsAt cursor) :
    (next first second).FailsAt cursor := by
  obtain ⟨furthest, hRun, hLe⟩ := hFirst
  exact ⟨furthest, by simp [run, hRun], hLe⟩

theorem failsAt_rule
    (hPart : part.FailsAt cursor) :
    (rule part).FailsAt cursor := by
  obtain ⟨furthest, hRun, hLe⟩ := hPart
  exact ⟨cursor.skip.offset,
    by simp [run, hRun, Trial.since, hLe], Nat.le_refl _⟩

theorem failsAt_maybe
    (hFirst : first.FailsAt cursor)
    (hSecond : second.FailsAt cursor) :
    (next (maybe first) second).FailsAt cursor := by
  obtain ⟨before, hBefore, hBeforeLe⟩ := hFirst
  obtain ⟨furthest, hRun, hLe⟩ := hSecond
  refine ⟨max before furthest, ?_, Nat.max_le.2
    ⟨hBeforeLe, hLe⟩⟩
  simp [run, hBefore, Cursor.skip_skip, hRun, Trial.since]

------------------------------------------------------------
-- Parts of statements
------------------------------------------------------------

/-
  What a trial of a part says about reading from a stage: the
  part takes the text to a stage behind it, or the text is at
  fault in the part.  With some tokens the part would go on.
  Where it does not, although such a token comes, the fault is
  behind that token.
-/
inductive Passes
    (more : Token → Bool)
    (stage last : Stage)
    (cursor : Cursor) : Trial → Prop where
  | found
      {behind : Cursor}
      {furthest : Nat}
      (hReads : ∀ fault, last.Reads behind fault →
        stage.Reads cursor fault)
      (hFurthest : furthest ≤ behind.skip.offset)
      (hUpto : cursor.Upto behind)
      (hDone : behind.Faces fun t => more t = false) :
      Passes more stage last cursor ⟨some behind, furthest⟩
  | lost
      {back behind : Cursor}
      {furthest : Nat}
      {t : Token}
      (hReads : stage.Reads cursor (some furthest))
      (hFurthest : back.skip.offset ≤ furthest)
      (hToken : back.token? = some (t, behind))
      (hMore : more t = true) :
      Passes more stage last cursor ⟨some back, furthest⟩
  | failed
      {furthest : Nat}
      (hReads : stage.Reads cursor (some furthest)) :
      Passes more stage last cursor ⟨none, furthest⟩

/- The tokens of a part that ends in one way only. -/
def nothing (_ : Token) : Bool :=
  false

theorem Passes.of_reads
    {middle : Stage}
    {trial : Trial}
    (hTrial : Passes more middle last behind trial)
    (hUpto : cursor.Upto behind)
    (hReads : ∀ fault, middle.Reads behind fault →
      stage.Reads cursor fault) :
    Passes more stage last cursor trial := by
  cases hTrial with
  | found hBehind hFurthest hFurther hDone =>
      exact .found (fun fault hFault =>
        hReads fault (hBehind fault hFault)) hFurthest
        (hUpto.trans hFurther) hDone
  | lost hFault hFurthest hToken hMore =>
      exact .lost (hReads _ hFault) hFurthest hToken hMore
  | failed hFault => exact .failed (hReads _ hFault)

theorem Passes.since
    {trial : Trial}
    (hTrial : Passes more stage last cursor trial)
    {furthest : Nat}
    (hLe : furthest ≤ cursor.skip.offset) :
    Passes more stage last cursor (trial.since furthest) := by
  cases hTrial with
  | found hReads hFurthest hUpto hDone =>
      have hMost := Nat.le_trans hLe hUpto.offset
      exact .found hReads (Nat.max_le.2 ⟨hMost, hFurthest⟩)
        hUpto hDone
  | lost hReads hFurthest hToken hMore =>
      rw [Trial.since, hReads.max_eq hLe]
      exact .lost hReads hFurthest hToken hMore
  | failed hReads =>
      rw [Trial.since, hReads.max_eq hLe]
      exact .failed hReads

/- A key word or a name that has to come. -/
theorem passes_of_takes
    (hTakes : part.TakesAsRule right)
    (hEnd : cursor.token? = none → stage.mayEnd = false)
    (hNext : cursor.Faces fun t =>
      stage.next t = if right t then some last else none) :
    Passes nothing stage last cursor
      (part.run cursor.skip) := by
  rw [hTakes cursor, Cursor.after?]
  cases hToken : cursor.token? with
  | none =>
      have hReads : stage.Reads cursor
          (if stage.mayEnd then none
            else some cursor.skip.offset) :=
        .ends hToken
      rw [hEnd hToken] at hReads
      exact .failed hReads
  | some found =>
      obtain ⟨t, behind⟩ := found
      have hStage : stage.next t =
          if right t then some last else none :=
        hNext t behind hToken
      by_cases hRight : right t = true
      · rw [if_pos hRight] at hStage
        have hUpto := Cursor.upto_of_token? hToken
        simp only [Option.bind_some, hRight, if_true]
        exact .found (fun _ => .goes hToken hStage)
          (Nat.zero_le _) hUpto fun _ _ _ => rfl
      · rw [if_neg hRight] at hStage
        simp only [Option.bind_some, hRight]
        exact .failed (.stops hToken hStage)

theorem passes_rule
    (hPart : Passes more stage last cursor
      (part.run cursor.skip)) :
    Passes more stage last cursor
      ((rule part).run cursor.skip) := by
  rw [run]
  cases hTrial : (part.run cursor.skip).found with
  | some _ => exact hPart
  | none => exact hPart.since (Nat.le_refl _)

theorem passes_next
    {middle : Stage}
    (hFirst : Passes nothing stage middle cursor
      (first.run cursor.skip))
    (hSecond : ∀ behind, Passes more middle last behind
      (second.run behind.skip)) :
    Passes more stage last cursor
      ((next first second).run cursor.skip) := by
  rw [run]
  generalize first.run cursor.skip = trial at hFirst
  cases hFirst with
  | @found behind _ hReads hFurthest hUpto _ =>
      exact ((hSecond behind).since hFurthest).of_reads hUpto
        hReads
  | lost _ _ _ hMore => cases hMore
  | failed hReads => exact .failed hReads

/- What is tried again and again leads back to its stage. -/
theorem passes_repeated
    (hTakes : opener.Takes more)
    (hNext : ∀ t, more t = true → stage.next t = some later)
    (hBody : ∀ behind, Passes nothing later stage behind
      (body.run behind.skip))
    {fuel : Nat}
    (hFuel : cursor.rest.length < fuel) :
    Passes more stage stage cursor
      (repeated (next opener body).run fuel cursor) := by
  induction fuel generalizing cursor with
  | zero => cases hFuel
  | succ fuel ih =>
      rw [repeated]
      rcases cursor.faces_or_right more with
        ⟨t, behind, hToken, hRight⟩ | hWrong
      · obtain ⟨opened, hOpener, hLe⟩ :=
          hTakes.run_of_right hToken hRight
        have hUpto := Cursor.upto_of_token? hToken
        have hShorter := Cursor.shorter_of_token? hToken
        have hStep (fault : Option Nat)
            (hFault : later.Reads behind fault) :
            stage.Reads cursor fault :=
          .goes hToken (hNext t hRight) hFault
        have hTrial : Passes nothing later stage behind
            ((next opener body).run cursor.skip) := by
          rw [run, hOpener]
          exact (hBody behind).since
            (Nat.le_trans hLe hUpto.offset)
        generalize (next opener body).run cursor.skip = trial
          at hTrial
        cases hTrial with
        | found hReads hFurthest hFurther _ =>
            have hFewer := Nat.lt_of_le_of_lt hFurther.rest
              (Nat.lt_of_lt_of_le hShorter
                (Nat.le_of_lt_succ hFuel))
            exact ((ih hFewer).since hFurthest).of_reads
              (hUpto.trans hFurther)
              fun fault hFault => hStep _ (hReads _ hFault)
        | lost _ _ _ hMore => cases hMore
        | failed hReads =>
            have hFault := hStep _ hReads
            exact .lost hFault (hFault.le_of_fault rfl) hToken
              hRight
      · have hFails : (next opener body).FailsAt cursor :=
          failsAt_next (hTakes.failsAt hWrong)
        obtain ⟨furthest, hRun, hLe⟩ := hFails
        rw [hRun]
        exact .found (fun _ hFault => hFault) hLe
          ⟨Nat.le_refl _, Nat.le_refl _⟩ hWrong

theorem passes_many
    (hTakes : opener.Takes more)
    (hNext : ∀ t, more t = true → stage.next t = some later)
    (hBody : ∀ behind, Passes nothing later stage behind
      (body.run behind.skip))
    (cursor : Cursor) :
    Passes more stage stage cursor
      ((many (next opener body)).run cursor.skip) := by
  rw [run]
  exact (passes_repeated hTakes hNext hBody
    (Nat.lt_succ_self _)).of_reads cursor.upto_skip
    fun _ => .of_skip

/- What does not have to come may be missing. -/
theorem passes_maybe
    (hTakes : part.Takes right)
    (hEnd : stage.mayEnd = last.mayEnd)
    (hNext : ∀ t, stage.next t =
      if right t then some last else last.next t) :
    Passes nothing stage last cursor
      ((maybe part).run cursor.skip) := by
  rw [run]
  rcases cursor.faces_or_right right with
    ⟨t, behind, hToken, hRight⟩ | hWrong
  · obtain ⟨furthest, hRun, hLe⟩ :=
      hTakes.run_of_right hToken hRight
    have hUpto := Cursor.upto_of_token? hToken
    have hStage := hNext t
    rw [if_pos hRight] at hStage
    simp only [hRun, Option.getD_some]
    exact .found (fun _ => .goes hToken hStage)
      (Nat.le_trans hLe hUpto.offset) hUpto fun _ _ _ => rfl
  · obtain ⟨furthest, hRun, hLe⟩ := hTakes.failsAt hWrong
    have hSame : cursor.Faces fun t =>
        stage.next t = last.next t := by
      intro t behind hToken
      have hOther := hWrong t behind hToken
      simp [hNext, hOther]
    simp only [hRun, Option.getD_none]
    exact .found
      (fun _ hReads => hReads.of_skip.of_next hEnd hSame)
      (Nat.le_trans hLe cursor.upto_skip.offset)
      cursor.upto_skip fun _ _ _ => rfl

------------------------------------------------------------
-- Ends of statements
------------------------------------------------------------

theorem fault_since
    {trial : Trial}
    (hReads : stage.Reads cursor trial.fault)
    {furthest : Nat}
    (hLe : furthest ≤ cursor.skip.offset) :
    stage.Reads cursor (trial.since furthest).fault := by
  obtain ⟨found, further⟩ := trial
  cases found with
  | some _ => exact hReads
  | none =>
      have hFault := hReads.max_eq hLe
      simpa only [Trial.since, hFault] using hReads

/-
  Where a part was found, what comes is read behind it, if the
  part would not go on with it.
-/
theorem reads_behind
    {trial : Trial}
    (hFirst : Passes more stage last cursor trial)
    (hFound : trial.found = some behind)
    (hSecond :
      (behind.Faces fun t => more t = false) →
      last.Reads behind (second.run behind.skip).fault)
    (hFails : ∀ t beyond,
      behind.token? = some (t, beyond) → more t = true →
      second.FailsAt behind) :
    stage.Reads cursor
      ((second.run behind.skip).since trial.furthest).fault := by
  cases hFirst with
  | found hReads hFurthest _ hDone =>
      cases hFound
      exact hReads _ (fault_since (hSecond hDone) hFurthest)
  | lost hReads hFurthest hToken hMore =>
      cases hFound
      rw [(hFails _ _ hToken hMore).since_eq hFurthest]
      exact hReads
  | failed _ => cases hFound

theorem reads_next
    (hFirst : Passes more stage last cursor
      (first.run cursor.skip))
    (hSecond : ∀ behind : Cursor,
      (behind.Faces fun t => more t = false) →
      last.Reads behind (second.run behind.skip).fault)
    (hFails : ∀ (behind : Cursor) t beyond,
      behind.token? = some (t, beyond) → more t = true →
      second.FailsAt behind) :
    stage.Reads cursor
      ((next first second).run cursor.skip).fault := by
  rw [run]
  cases hFound : (first.run cursor.skip).found with
  | some behind =>
      exact reads_behind hFirst hFound (hSecond behind)
        (hFails behind)
  | none =>
      generalize first.run cursor.skip = trial
        at hFirst hFound
      cases hFirst with
      | found => cases hFound
      | lost => cases hFound
      | failed hReads => exact hReads

/-
  An expression that reads the text to its end, at any stage
  that may end and has the same stages behind it.
-/
def Finishes
    (part : Grammar)
    (menu : Token → Option Stage) : Prop :=
  ∀ (stage : Stage) (cursor : Cursor), stage.mayEnd = true →
    (cursor.Faces fun t => stage.next t = menu t) →
    stage.Reads cursor (part.run cursor.skip).fault

theorem finishes_finish : finish.Finishes fun _ => none := by
  intro stage cursor hEnd hNext
  cases hToken : cursor.token? with
  | none =>
      have hRest := Cursor.token?_eq_none_iff.1 hToken
      have hReads : stage.Reads cursor
          (if stage.mayEnd then none
            else some cursor.skip.offset) :=
        .ends hToken
      rw [hEnd] at hReads
      simpa [run, Trial.named, Trial.fault, hRest] using hReads
  | some found =>
      obtain ⟨t, behind⟩ := found
      rw [run_finish_of_token? hToken]
      exact .stops hToken (hNext t behind hToken)

/- A clause may come before the end of a statement. -/
theorem finishes_maybe
    {menu : Token → Option Stage}
    {tail : Grammar}
    (hKey : Word.isRun spelling = true)
    (hBody : ∀ behind, Passes more later last behind
      (body.run behind.skip))
    (hLast : last.mayEnd = true)
    (hMenu : ∀ t, more t = false → last.next t = menu t)
    (hTail : tail.Finishes menu)
    (hFails : ∀ (back : Cursor) t behind,
      back.token? = some (t, behind) →
      (more t = true ∨ t.spells spelling = true) →
      tail.FailsAt back) :
    (next (maybe (rule (next (word spelling) body)))
      tail).Finishes fun t =>
        if t.spells spelling then some later else menu t := by
  intro stage cursor hEnd hNext
  rcases cursor.faces_or_right (Token.spells spelling) with
    ⟨t, behind, hToken, hSpells⟩ | hWrong
  · have hMark : Passes nothing stage later cursor
        ((word spelling).run cursor.skip) := by
      have hStage : stage.next t =
          if t.spells spelling then some later else menu t :=
        hNext t behind hToken
      refine passes_of_takes (takes_word hKey)
        (by simp [hToken]) (Cursor.faces_of_token? hToken ?_)
      rw [hStage, if_pos hSpells, if_pos hSpells]
    have hClause := passes_rule (passes_next hMark hBody)
    rw [run, run]
    generalize (rule (next (word spelling) body)).run
      cursor.skip = trial at hClause
    obtain ⟨found, furthest⟩ := trial
    cases found with
    | some back =>
        exact reads_behind hClause rfl
          (fun hDone => hTail _ _ hLast fun t beyond hOther =>
            hMenu t (hDone t beyond hOther))
          fun t beyond hOther hMore =>
            hFails back t beyond hOther (.inl hMore)
    | none =>
        cases hClause with
        | failed hReads =>
            have hTailFails : tail.FailsAt cursor :=
              hFails cursor t behind hToken (.inr hSpells)
            simp only [Option.getD_none, Cursor.skip_skip,
              hTailFails.since_eq (hReads.le_of_fault rfl)]
            exact hReads
  · have hClause :
        (rule (next (word spelling) body)).FailsAt cursor :=
      failsAt_rule (failsAt_next
        ((takes_word hKey).takes.failsAt hWrong))
    obtain ⟨furthest, hRun, hLe⟩ := hClause
    have hSame : cursor.Faces fun t =>
        stage.next t = menu t := by
      intro t behind hToken
      have hStage : stage.next t =
          if t.spells spelling then some later else menu t :=
        hNext t behind hToken
      have hOther : t.spells spelling = false :=
        hWrong t behind hToken
      simpa [hOther] using hStage
    rw [run, run, hRun]
    simp only [Option.getD_none, Cursor.skip_skip]
    exact fault_since (hTail stage cursor hEnd hSame) hLe

------------------------------------------------------------
-- The clauses
------------------------------------------------------------

/- A name that has to come. -/
theorem passes_name
    (last : Stage)
    (hEnd : stage.mayEnd = false)
    (hNext : ∀ t, stage.next t = last.name t)
    (cursor : Cursor) :
    Passes nothing stage last cursor
      (name.run cursor.skip) := by
  refine passes_of_takes takes_name (fun _ => hEnd)
    fun t _ _ => (hNext t).trans ?_
  unfold Stage.name
  cases t.isComma <;> rfl

/- A key word that has to come. -/
theorem passes_word
    (last : Stage)
    (hKey : Word.isRun spelling = true)
    (hEnd : stage.mayEnd = false)
    (hNext : ∀ t, stage.next t =
      if t.spells spelling then some last else none)
    (cursor : Cursor) :
    Passes nothing stage last cursor
      ((word spelling).run cursor.skip) :=
  passes_of_takes (takes_word hKey) (fun _ => hEnd)
    fun t _ _ => hNext t

theorem passes_selectClause (cursor : Cursor) :
    Passes Token.isComma .start .selected cursor
      (selectClause.run cursor.skip) := by
  have hColumn : ∀ cursor : Cursor,
      Passes nothing .column .selected cursor
        (name.run cursor.skip) :=
    passes_name _ rfl fun _ => rfl
  have hColumns : ∀ cursor : Cursor,
      Passes Token.isComma .selected .selected cursor
        ((many (next comma name)).run cursor.skip) :=
    passes_many takes_comma (fun _ hComma => if_pos hComma)
      hColumn
  exact passes_rule (passes_next
    (passes_word .column rfl rfl (fun _ => rfl) cursor)
    fun behind => passes_next (hColumn behind) hColumns)

/- Behind the columns a comma cannot come. -/
theorem passes_fromClause
    (hDone : cursor.Faces fun t => t.isComma = false) :
    Passes nothing .selected .table cursor
      (fromClause.run cursor.skip) := by
  have hFrom : Passes nothing .selected .source cursor
      ((word "from").run cursor.skip) := by
    refine passes_of_takes (takes_word rfl) (fun _ => rfl) ?_
    intro t behind hToken
    have hComma : t.isComma = false := hDone t behind hToken
    simp [Stage.next, hComma]
  exact passes_rule (passes_next hFrom
    (passes_name _ rfl fun _ => rfl))

theorem passes_criterion (cursor : Cursor) :
    Passes nothing .criterion .condition cursor
      (criterion.run cursor.skip) :=
  passes_rule (passes_next
    (passes_name .operator rfl (fun _ => rfl) cursor)
    fun behind => passes_next
      (passes_name .parameter rfl (fun _ => rfl) behind)
      (passes_name _ rfl fun _ => rfl))

theorem passes_criteria (cursor : Cursor) :
    Passes (Token.spells "and") .criterion .condition cursor
      ((next criterion
        (many (next (word "and") criterion))).run
          cursor.skip) :=
  passes_next (passes_criterion cursor)
    (passes_many (takes_word rfl).takes
      (fun _ hAnd => if_pos hAnd) passes_criterion)

theorem takes_direction :
    direction.Takes fun t =>
      t.spells "asc" || t.spells "desc" :=
  takes_rule (takes_either (takes_word rfl).takes
    (takes_word rfl).takes)

theorem passes_orderItem (cursor : Cursor) :
    Passes nothing .orderColumn .directed cursor
      (orderItem.run cursor.skip) :=
  passes_rule (passes_next
    (passes_name .ordered rfl (fun _ => rfl) cursor)
    fun _ => passes_maybe takes_direction rfl fun _ => rfl)

theorem passes_orders (cursor : Cursor) :
    Passes Token.isComma .orderBy .directed cursor
      ((next (word "by") (next orderItem
        (many (next comma orderItem)))).run cursor.skip) :=
  passes_next
    (passes_word .orderColumn rfl rfl (fun _ => rfl)
      cursor)
    fun behind => passes_next (passes_orderItem behind)
      (passes_many takes_comma
        (fun _ hComma => if_pos hComma) passes_orderItem)

------------------------------------------------------------
-- The whole statement
------------------------------------------------------------

/- A clause is missing where another token comes. -/
theorem failsAt_clause
    (hKey : Word.isRun spelling = true)
    (hToken : cursor.token? = some (t, behind))
    (hOther : t.spells spelling = false) :
    (rule (next (word spelling) body)).FailsAt cursor :=
  failsAt_rule (failsAt_next ((takes_word hKey).takes.failsAt
    (Cursor.faces_of_token? hToken hOther)))

/- A comma opens no clause. -/
theorem spells_of_isComma
    (hComma : t.isComma = true)
    (hApart : spelling.toList.map Char.toLower ≠ [',']) :
    t.spells spelling = false :=
  Token.spells_of_comma (by simpa [Token.isComma] using hComma)
    hApart

theorem failsAt_afterOrder
    (hToken : cursor.token? = some (t, behind))
    (hLimit : t.spells "limit" = false) :
    afterOrder.FailsAt cursor :=
  failsAt_maybe (failsAt_clause rfl hToken hLimit)
    (failsAt_finish hToken)

theorem failsAt_afterWhere
    (hToken : cursor.token? = some (t, behind))
    (hOrder : t.spells "order" = false)
    (hLimit : t.spells "limit" = false) :
    afterWhere.FailsAt cursor :=
  failsAt_maybe (failsAt_clause rfl hToken hOrder)
    (failsAt_afterOrder hToken hLimit)

theorem finishes_afterOrder :
    afterOrder.Finishes fun t =>
      if t.spells "limit" then some .limit else none :=
  finishes_maybe rfl (passes_name .limited rfl fun _ => rfl)
    rfl (fun _ _ => rfl) finishes_finish
    fun _ _ _ hToken _ => failsAt_finish hToken

theorem finishes_afterWhere :
    afterWhere.Finishes Stage.afterWhere := by
  refine finishes_maybe rfl passes_orders rfl ?_
    finishes_afterOrder ?_
  · intro t hComma
    simp [Stage.next, Stage.afterOrder, hComma]
  · rintro back t behind hToken (hComma | hOrder)
    · exact failsAt_afterOrder hToken
        (spells_of_isComma hComma (by decide))
    · exact failsAt_afterOrder hToken
        (Token.spells_of_apart hOrder (by decide))

theorem finishes_afterTable :
    afterTable.Finishes Stage.table.next := by
  refine finishes_maybe rfl passes_criteria rfl ?_
    finishes_afterWhere ?_
  · intro t hAnd
    simp [Stage.next, hAnd]
  · rintro back t behind hToken (hAnd | hWhere)
    · exact failsAt_afterWhere hToken
        (Token.spells_of_apart hAnd (by decide))
        (Token.spells_of_apart hAnd (by decide))
    · exact failsAt_afterWhere hToken
        (Token.spells_of_apart hWhere (by decide))
        (Token.spells_of_apart hWhere (by decide))

/- The rule of a whole text is at fault where its part is. -/
theorem fault_whole
    (part : Grammar)
    (text : String) :
    ((rule (next origin part)).run (.start text)).fault =
      (part.run (Cursor.start text).skip).fault := by
  have hOrigin : origin.run (.start text) =
      ⟨some (.start text), 0⟩ :=
    rfl
  rw [run, run, hOrigin]
  dsimp only
  generalize part.run _ = trial
  obtain ⟨found, furthest⟩ := trial
  cases found <;> simp [Trial.since, Trial.fault, Cursor.start]

/-
  Reading by stages tells what the grammar does: a text is a
  statement, or it is at fault at the furthest place at which
  a rule fails.
-/
theorem statement_reads (text : String) :
    Stage.start.Reads (.start text)
      (statement.run (.start text)).fault := by
  rw [statement, fault_whole]
  refine reads_next (passes_selectClause _) ?_ ?_
  · intro behind hDone
    refine reads_next (passes_fromClause hDone) ?_ ?_
    · intro behind _
      exact finishes_afterTable .table behind rfl
        fun _ _ _ => rfl
    · intro _ _ _ _ hMore
      cases hMore
  · intro behind t beyond hToken hComma
    exact failsAt_next (failsAt_clause rfl hToken
      (spells_of_isComma hComma (by decide)))

end Grammar

end SparseTables
