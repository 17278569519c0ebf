import SparseTables.Proofs.Program.Amid

/-
  This file gives rules for programs amid others that make no
  transaction: from the contents that they have seen they
  lead to an outcome that fits the contents at their end.

  A row that is looked up and added if it is missing is there
  after two attempts, unless calls of the store fail: who
  loses the race to add it finds the row of the one who was
  faster.

  Main declarations:
    * `Program.Leads`
    * `Program.leads_run`
    * `Program.leads_read_bind`
    * `Program.leads_attempts`
    * `Program.leads_add_bind`
    * `Program.leads_check_bind`
-/

namespace SparseTables

namespace Program

variable {α β : Type} {concord : Concord} {pledge : Pledge}

------------------------------------------------------------
-- Programs without transactions
------------------------------------------------------------

/-
  From what was seen on a program leads to an outcome that
  fits the contents at its end.
-/
def Leads
    (concord : Concord)
    (pledge : Pledge)
    (good : Except Error α → Contents → Prop)
    (program : Program α)
    (seen : Contents) : Prop :=
  program.Amid concord pledge
    (fun outcome standing => ∃ now,
      standing = .apart false now ∧ seen.Widens now ∧
        concord.such now ∧ good outcome now)
    (.apart false seen)

/- It succeeds with what fits, unless a call has failed. -/
def Gets
    (concord : Concord)
    (good : α → Contents → Prop) :
    Except Error α → Contents → Prop
  | .ok given, now => good given now
  | .error _, _ => concord.MayFail

variable {good good' : Except Error α → Contents → Prop}
variable {seen : Contents}

theorem leads_done
    {outcome : Except Error α}
    (hSuch : concord.such seen)
    (hGood : good outcome seen) :
    (done outcome).Leads concord pledge good seen :=
  ⟨seen, rfl, .refl seen, hSuch, hGood⟩

namespace Leads

theorem mono
    {program : Program α}
    (hLeads : program.Leads concord pledge good seen)
    (hGood : ∀ outcome now, seen.Widens now →
      good outcome now → good' outcome now) :
    program.Leads concord pledge good' seen := by
  refine Amid.mono hLeads ?_
  rintro outcome _ ⟨now, rfl, hWidens, hSuch, hEnd⟩
  exact ⟨now, rfl, hWidens, hSuch,
    hGood outcome now hWidens hEnd⟩

/- What comes next begins with what is seen then. -/
theorem andThen
    {program : Program β}
    {next : Except Error β → Program α}
    {mid : Except Error β → Contents → Prop}
    (hFirst : program.Leads concord pledge mid seen)
    (hNext : ∀ outcome now, seen.Widens now →
      concord.such now → mid outcome now →
        (next outcome).Leads concord pledge good now) :
    (program.andThen next).Leads concord pledge good seen := by
  refine Amid.andThen hFirst ?_
  rintro outcome _ ⟨now, rfl, hWidens, hSuch, hMid⟩
  refine Amid.mono (hNext outcome now hWidens hSuch hMid) ?_
  rintro last _ ⟨later, rfl, hMore, hRest⟩
  exact ⟨later, rfl, hWidens.trans hMore, hRest⟩

theorem bind
    {program : Program β}
    {next : β → Program α}
    {mid : Except Error β → Contents → Prop}
    (hFirst : program.Leads concord pledge mid seen)
    (hNext : ∀ given now, seen.Widens now →
      concord.such now → mid (.ok given) now →
        (next given).Leads concord pledge good now)
    (hError : ∀ error now, mid (.error error) now →
      good (.error error) now) :
    (program >>= next).Leads concord pledge good seen := by
  refine hFirst.andThen ?_
  rintro (error | given) now hWidens hSuch hMid
  · exact leads_done hSuch (hError error now hMid)
  · exact hNext given now hWidens hSuch hMid

/- What succeeds is followed by what is done with it. -/
theorem bind_gets
    {program : Program β}
    {next : β → Program α}
    {mid : β → Contents → Prop}
    (hFirst : program.Leads concord pledge
      (Gets concord mid) seen)
    (hNext : ∀ given now, seen.Widens now →
      concord.such now → mid given now →
        (next given).Leads concord pledge good now)
    (hFails : concord.MayFail → ∀ error now,
      good (.error error) now) :
    (program >>= next).Leads concord pledge good seen :=
  hFirst.bind hNext fun error now hMay =>
    hFails hMay error now

theorem map_gets
    {program : Program β}
    {give : β → α}
    {mid : β → Contents → Prop}
    {good : α → Contents → Prop}
    (hFirst : program.Leads concord pledge
      (Gets concord mid) seen)
    (hGood : ∀ given now, seen.Widens now → mid given now →
      good (give given) now) :
    (give <$> program).Leads concord pledge
      (Gets concord good) seen :=
  hFirst.bind_gets
    (fun given now hWidens hSuch hMid =>
      leads_done hSuch (hGood given now hWidens hMid))
    fun hMay _ _ => hMay

end Leads

/- A statement outside of transactions. -/
theorem leads_run
    (asked : Statement)
    {good : Except Error asked.Answer → Contents → Prop}
    (hRun : ∀ now clock, seen.Widens now → concord.such now →
      match asked.run clock now with
      | .ok (answer, after) =>
          pledge.adds now after ∧ concord.such after ∧
            good (.ok answer) after
      | .error error => good (.error error) now)
    (hFails : concord.MayFail → ∀ error now,
      good (.error error) now) :
    (run asked).Leads concord pledge good seen := by
  intro later hLater hSuch clock
  rcases hLater.apart with ⟨now, rfl, hWidens⟩
  have hNow := hRun now clock hWidens hSuch
  have hEarly (hMay : concord.MayFail)
      (_ : Request.shared asked ≠ .release)
      (error : Error) :
      ∃ last, Standing.apart false now = .apart false last ∧
        seen.Widens last ∧ concord.such last ∧
          good (.error error) last :=
    ⟨now, rfl, hWidens, hSuch, hFails hMay error now⟩
  simp only [Standing.Allows, Standing.after, Standing.contents,
    Standing.engine, Engine.perform, Engine.statement,
    Engine.ofContents]
  cases hAnswer : asked.run clock now with
  | ok given =>
      rcases given with ⟨answer, after⟩
      simp only [hAnswer] at hNow ⊢
      rcases hNow with ⟨hAdds, hAfter, hGood⟩
      exact ⟨hAdds, hAfter, ⟨after, rfl, hWidens.trans
        (pledge.adds_widens hAdds), hAfter, hGood⟩, hEarly⟩
  | error error =>
      simp only [hAnswer] at hNow ⊢
      exact ⟨pledge.stays now, hSuch,
        ⟨now, rfl, hWidens, hSuch, hNow⟩, hEarly⟩

/- A statement that only reads, and what follows it. -/
theorem leads_read_bind
    (asked : Statement)
    {read : Contents → asked.Answer}
    (hReads : ∀ clock contents, asked.run clock contents =
      .ok (read contents, contents))
    {next : asked.Answer → Program α}
    (hFails : concord.MayFail → ∀ error now,
      good (.error error) now)
    (hNext : ∀ now, seen.Widens now → concord.such now →
      (next (read now)).Leads concord pledge good now) :
    (run asked >>= next).Leads concord pledge good seen := by
  have hRead : (run asked).Leads concord pledge
      (Gets concord fun given now => given = read now)
      seen := by
    refine leads_run asked (fun now clock _ hSuch => ?_)
      fun hMay _ _ => hMay
    rw [hReads]
    exact ⟨pledge.stays now, hSuch, rfl⟩
  refine hRead.bind_gets ?_ hFails
  rintro _ now hWidens hSuch rfl
  exact hNext now hWidens hSuch

/- What is read from the caches is in the store. -/
theorem leads_caches_bind
    {next : Caches → Program α}
    (hNext : ∀ now caches, seen.Widens now →
      concord.such now → caches.Mirrors now →
        (next caches).Leads concord pledge good now) :
    (caches >>= next).Leads concord pledge good seen := by
  intro later hLater hSuch caches hMirrors
  rcases hLater.apart with ⟨now, rfl, hWidens⟩
  refine ⟨hMirrors, Amid.mono
    (hNext now caches hWidens hSuch hMirrors) ?_⟩
  rintro outcome _ ⟨last, rfl, hMore, hRest⟩
  exact ⟨last, rfl, hWidens.trans hMore, hRest⟩

/- A row that is in the store is kept, and given back. -/
theorem leads_keepTable
    {row : Table}
    (hRow : row ∈ seen.tables.rows) :
    (keepTable row).Leads concord pledge
      (Gets concord fun given _ => given = row) seen := by
  intro later hLater hSuch caches hMirrors
  rcases hLater.apart with ⟨now, rfl, hWidens⟩
  have hThere := hWidens.retains.tables row hRow
  refine ⟨{ hMirrors with
    tables := hMirrors.tables.keep hThere }, now, rfl,
      hWidens, hSuch, ?_⟩
  have hGet := hMirrors.get?_keepTable
    (concord.keyed hSuch) hThere
  change Option.getD _ row = row
  rw [hGet, Option.getD_some]

theorem leads_keepAttribute
    {row : Attribute}
    (hRow : row ∈ seen.attributes.rows) :
    (keepAttribute row).Leads concord pledge
      (Gets concord fun given _ => given = row) seen := by
  intro later hLater hSuch caches hMirrors
  rcases hLater.apart with ⟨now, rfl, hWidens⟩
  have hThere := hWidens.retains.attributes row hRow
  refine ⟨{ hMirrors with
    attributes := hMirrors.attributes.keep hThere }, now, rfl,
      hWidens, hSuch, ?_⟩
  have hGet := hMirrors.get?_keepAttribute
    (concord.keyed hSuch) hThere
  change Option.getD _ row = row
  rw [hGet, Option.getD_some]

theorem leads_keepValue
    {content : Scalar}
    {id : Int}
    (hRow : ⟨id, content.normalized⟩ ∈ seen.values.rows) :
    (keepValue content id).Leads concord pledge
      (Gets concord fun _ _ => True) seen := by
  intro later hLater hSuch caches hMirrors
  rcases hLater.apart with ⟨now, rfl, hWidens⟩
  have hThere := hWidens.retains.values _ hRow
  exact ⟨{ hMirrors with
    values := hMirrors.values.keep hThere }, now, rfl,
      hWidens, hSuch, trivial⟩

------------------------------------------------------------
-- Attempts
------------------------------------------------------------

/- Attempts that succeed unless a call fails. -/
theorem leads_runFrom
    (label : String)
    (attempts further : Nat)
    {action : Program α}
    {good : α → Contents → Prop}
    (hLeads : ∀ now, seen.Widens now →
      action.Leads concord pledge (Gets concord good) now) :
    (Policy.runFrom label attempts action further).Leads
      concord pledge (Gets concord good) seen := by
  induction further generalizing seen with
  | zero =>
      refine (hLeads seen (.refl seen)).andThen ?_
      rintro (error | given) now hWidens hSuch hEnd
      · change (if error.isRetryable then _ else _ :
          Program α).Leads _ _ _ _
        split <;> exact leads_done hSuch hEnd
      · exact leads_done hSuch hEnd
  | succ further ih =>
      refine (hLeads seen (.refl seen)).andThen ?_
      rintro (error | given) now hWidens hSuch hEnd
      · change (if error.isRetryable then _ else _ :
          Program α).Leads _ _ _ _
        split
        · exact ih fun later hMore =>
            hLeads later (hWidens.trans hMore)
        · exact leads_done hSuch hEnd
      · exact leads_done hSuch hEnd

/-
  It succeeds, or loses a race to another that has made a key
  known.
-/
def GetsOrLoses
    (concord : Concord)
    (key : Key)
    (good : α → Contents → Prop)
    (outcome : Except Error α)
    (now : Contents) : Prop :=
  Gets concord good outcome now ∨
    ∃ error, outcome = .error error ∧ error.isRetryable ∧
      now.Knows key

/-
  An attempt that loses a race knows what it needs to win the
  next one.  Two attempts are enough, unless calls fail.
-/
theorem leads_attempts
    {policy : Policy}
    (hTwice : 2 ≤ policy.attempts)
    (label : String)
    {action : Program α}
    {good : α → Contents → Prop}
    {key : Key}
    (hFirst : ∀ now, seen.Widens now →
      action.Leads concord pledge
        (GetsOrLoses concord key good) now)
    (hAgain : ∀ now, seen.Widens now → now.Knows key →
      action.Leads concord pledge (Gets concord good) now) :
    (policy.run label action).Leads concord pledge
      (Gets concord good) seen := by
  unfold Policy.run
  by_cases hMay : concord.MayFail
  · refine leads_runFrom label _ _ fun now hWidens => ?_
    refine (hFirst now hWidens).mono ?_
    rintro outcome last - (hGets | ⟨error, rfl, -⟩)
    · exact hGets
    · exact hMay
  rcases Nat.exists_eq_add_of_le hTwice with ⟨further, hSame⟩
  have hMore : policy.attempts - 1 = further + 1 := by omega
  rw [hMore]
  refine (hFirst seen (.refl seen)).andThen ?_
  rintro (error | given) now hWidens hSuch hEnd
  · rcases hEnd with hFails | ⟨_, ⟨⟩, hRetry, hKnown⟩
    · exact absurd hFails hMay
    simp only [hRetry, ↓reduceIte]
    exact leads_runFrom label _ _ fun later hLater =>
      hAgain later (hWidens.trans hLater)
        (hLater.knows hKnown)
  · rcases hEnd with hGets | ⟨_, ⟨⟩, -⟩
    exact leads_done hSuch hGets

------------------------------------------------------------
-- Adding
------------------------------------------------------------

/-
  A statement does only what is promised, on all contents
  that may have come of what was seen.
-/
def Permits
    (concord : Concord)
    (pledge : Pledge)
    (seen : Contents)
    (asked : Statement) : Prop :=
  ∀ clock before answer after, seen.Widens before →
    concord.such before →
      asked.run clock before = .ok (answer, after) →
        pledge.adds before after ∧ concord.such after

theorem Permits.later
    {asked : Statement}
    {now : Contents}
    (hPermits : Permits concord pledge seen asked)
    (hWidens : seen.Widens now) :
    Permits concord pledge now asked :=
  fun _ _ _ _ hMore =>
    hPermits _ _ _ _ (hWidens.trans hMore)

/-
  What is missing is added.  If another has added it in the
  meantime, the race is lost and it is known.
-/
theorem leads_add_bind
    {added : Statement}
    (hPermits : Permits concord pledge seen added)
    {next : added.Answer → Program α}
    {good : α → Contents → Prop}
    {key : Key}
    (made : added.Answer → Contents → Prop)
    (hMade : ∀ {clock now answer after},
      added.run clock now = .ok (answer, after) →
        made answer after)
    (hLost : ∀ {clock now error}, seen.Widens now →
      concord.such now →
        added.run clock now = .error error →
          error.isRetryable ∧ now.Knows key)
    (hNext : ∀ answer now, concord.such now →
      made answer now →
        (next answer).Leads concord pledge
          (Gets concord good) now) :
    (run added >>= next).Leads concord pledge
      (GetsOrLoses concord key good) seen := by
  have hAdds : (run added).Leads concord pledge
      (GetsOrLoses concord key made) seen := by
    refine leads_run added (fun now clock hWidens hSuch => ?_)
      fun hMay _ _ => Or.inl hMay
    cases hAnswer : added.run clock now with
    | ok given =>
        rcases hPermits _ _ _ _ hWidens hSuch hAnswer with
          ⟨hAdds, hAfter⟩
        exact ⟨hAdds, hAfter, Or.inl (hMade hAnswer)⟩
    | error error =>
        exact Or.inr ⟨error, rfl, hLost hWidens hSuch hAnswer⟩
  refine hAdds.bind ?_ ?_
  · rintro answer now - hSuch (hMade | ⟨_, ⟨⟩, -⟩)
    exact (hNext answer now hSuch hMade).mono
      fun _ _ _ hGets => Or.inl hGets
  · rintro error now (hMay | ⟨_, ⟨⟩, hRest⟩)
    · exact Or.inl hMay
    · exact Or.inr ⟨error, rfl, hRest⟩

------------------------------------------------------------
-- Checks
------------------------------------------------------------

/- A check fails with its error, or all succeeds. -/
def Passes
    (concord : Concord)
    (check : Except Error Unit)
    (good : α → Contents → Prop)
    (outcome : Except Error α)
    (now : Contents) : Prop :=
  (∃ error, check = .error error ∧
    outcome = .error error) ∨
  check = .ok () ∧ Gets concord good outcome now

theorem leads_check_bind
    (hSuch : concord.such seen)
    {check : Except Error Unit}
    {next : Unit → Program α}
    {good : α → Contents → Prop}
    (hNext : check = .ok () →
      (next ()).Leads concord pledge
        (Gets concord good) seen) :
    (done check >>= next).Leads concord pledge
      (Passes concord check good) seen := by
  cases check with
  | error error =>
      exact leads_done hSuch (Or.inl ⟨error, rfl, rfl⟩)
  | ok =>
      exact (hNext rfl).mono fun _ _ _ hGets =>
        Or.inr ⟨rfl, hGets⟩

end Program

end SparseTables
