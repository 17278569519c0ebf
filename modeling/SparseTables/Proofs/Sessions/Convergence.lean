import Mathlib.Logic.Hydra
import SparseTables.Proofs.Session.Creating
import SparseTables.Proofs.Sessions.Forum

/-
  This file states that jobs come to their ends, and that
  sessions agree on the rows that they create at the same
  time.

  A step of a job leaves a part of its program.  Some job can
  always go on, so all of them are over in the end, whatever
  the order of their steps.

  Any number of jobs look rows up and create what is missing,
  and their requests come in any order.  Jobs for one key are
  all given one row, and there is one row under each key.

  Main declarations:
    * `Session.Job.Part`
    * `Session.Forum.wellFounded_step`
    * `Session.Forum.Along.exists_end`
    * `Session.creating`
    * `Session.Forum.Accounted`
    * `Session.Forum.Converged`
    * `Session.Forum.creations_converge`
-/

namespace SparseTables

namespace Program

variable {α : Type}

/- A program is what comes next in another. -/
inductive Part : Program α → Program α → Prop where
  | answered
      (request : Request)
      (next : Except Error request.Answer → Program α)
      (answer : Except Error request.Answer) :
      Part (next answer) (ask request next)
  | updated
      (update : Caches → Caches)
      (next : Caches → Program α)
      (caches : Caches) :
      Part (next caches) (cached update next)

theorem wellFounded_part :
    WellFounded (Part : Program α → Program α → Prop) := by
  refine ⟨fun program => ?_⟩
  induction program with
  | done outcome => exact ⟨_, nofun⟩
  | ask request next ih =>
      refine ⟨_, fun part hPart => ?_⟩
      cases hPart
      exact ih _
  | cached update next ih =>
      refine ⟨_, fun part hPart => ?_⟩
      cases hPart
      exact ih _

/- A step leaves a part of the program. -/
theorem part_of_step
    {shared after : Shared}
    {program later : Program α}
    (hStep : program.step? shared = some (later, after)) :
    later.Part program := by
  cases program with
  | done outcome => simp [step?] at hStep
  | cached update next =>
      simp only [step?, Option.some.injEq,
        Prod.mk.injEq] at hStep
      rw [← hStep.1]
      exact .updated update next _
  | ask request next =>
      rcases step?_ask_eq_some hStep with
        ⟨answer, store, rfl, -, -, -⟩
      exact .answered request next answer

end Program

namespace Session

/- A job has come further than another state of it. -/
def Job.Part (later job : Job) : Prop :=
  ∃ rest : Program job.errand.Answer,
    rest.Part job.rest ∧ later = { job with rest }

theorem Job.wellFounded_part : WellFounded Job.Part := by
  refine ⟨fun ⟨session, errand, rest⟩ => ?_⟩
  induction rest using Program.wellFounded_part.induction with
  | h rest ih =>
      refine ⟨_, fun later hLater => ?_⟩
      rcases hLater with ⟨part, hPart, rfl⟩
      exact ih part hPart

namespace Forum

variable {forum next : Forum}

/- A step replaces one of the jobs by a part of it. -/
theorem cutExpand_of_step
    {index : Nat}
    (hStep : forum.step? index = some next) :
    Relation.CutExpand Job.Part (next.jobs : Multiset Job)
      forum.jobs := by
  simp only [step?, Option.bind_eq_bind,
    Option.bind_eq_some_iff, Prod.exists,
    Option.some.injEq] at hStep
  rcases hStep with ⟨job, hJob, rest, shared, hRest, rfl⟩
  rcases List.getElem?_eq_some_iff.1 hJob with ⟨hIndex, hSame⟩
  refine ⟨{{ job with rest }}, job, ?_, ?_⟩
  · intro later hLater
    rw [Multiset.mem_singleton] at hLater
    exact ⟨rest, Program.part_of_step hRest, hLater⟩
  · have hSet := List.set_perm_cons_eraseIdx hIndex
      { job with rest }
    have hOld := List.getElem_cons_eraseIdx_perm hIndex
    rw [hSame] at hOld
    change ((forum.jobs.set index { job with rest } :
      Multiset Job) + {job}) = _
    rw [Multiset.coe_eq_coe.2 hSet,
      ← Multiset.coe_eq_coe.2 hOld, ← Multiset.cons_coe,
      ← Multiset.cons_coe]
    simp only [← Multiset.singleton_add]
    ac_rfl

/- No order of steps goes on forever. -/
theorem wellFounded_step :
    WellFounded fun next forum : Forum =>
      ∃ index, forum.step? index = some next := by
  refine Subrelation.wf ?_ (InvImage.wf
    (fun forum : Forum => (forum.jobs : Multiset Job))
    Job.wellFounded_part.cutExpand)
  rintro next forum ⟨index, hStep⟩
  exact cutExpand_of_step hStep

/- All jobs can be brought to their ends. -/
theorem Along.exists_end
    {terms : Terms}
    {holder : Nat}
    {standing : Standing}
    (hAlong : forum.Along terms holder standing) :
    ∃ (indices : List Nat) (last : Forum),
      forum.follow (indices.map Move.step) = some last ∧
        last.isOver := by
  induction forum using wellFounded_step.induction
    generalizing holder standing with
  | h forum ih =>
      cases hOver : forum.isOver with
      | true => exact ⟨[], forum, rfl, hOver⟩
      | false =>
          rcases hAlong.exists_step hOver with
            ⟨index, next, hStep⟩
          rcases hAlong.step hStep with ⟨⟨_, _, hNext⟩, -⟩
          rcases ih next ⟨index, hStep⟩ hNext with
            ⟨indices, last, hFollow, hLast⟩
          refine ⟨index :: indices, last, ?_, hLast⟩
          exact Option.bind_eq_some_iff.2
            ⟨next, hStep, hFollow⟩

end Forum

end Session

open Program

namespace Session

------------------------------------------------------------
-- Creations
------------------------------------------------------------

namespace Errand

/- The key whose row is created if it is missing. -/
def key? : Errand → Option Key
  | resolveTable name .create _ => some (.table name)
  | resolveAttribute tableId name .create _ =>
      some (.column tableId name)
  | resolveValue content .create =>
      some (.value content.normalized)
  | resolveItem tableId valueId .create =>
      some (.item tableId valueId)
  | _ => none

/- The kind that a new row is to have. -/
def kind : Errand → Option Bool
  | resolveTable _ _ numeric => some numeric
  | resolveAttribute _ _ _ numeric => some numeric
  | _ => none

/- What is looked at before the store is used. -/
def check : Errand → Except Error Unit
  | resolveTable name _ _ => Check.dictionary "Table" name
  | resolveAttribute _ name _ _ =>
      Check.dictionary "Column" name
  | resolveValue content _ => Check.storable content
  | _ => .ok ()

/- What an answer tells of the row under the key. -/
def entry? : (errand : Errand) → errand.Answer → Option Entry
  | resolveTable _ _ _, (given : Option Table) =>
      given.map fun row => ⟨row.id, some row.numeric⟩
  | resolveAttribute _ _ _ _, (given : Option Attribute) =>
      given.map fun row => ⟨row.id, some row.numeric⟩
  | resolveValue _ _, (given : Option Int) =>
      given.map fun id => ⟨id, none⟩
  | resolveItem _ _ _, (given : Option Int) =>
      given.map fun id => ⟨id, none⟩
  | _, _ => none

/- An answer tells of a row that is there. -/
def Gives
    (errand : Errand)
    (given : errand.Answer)
    (now : Contents) : Prop :=
  ∃ key entry, errand.key? = some key ∧
    errand.entry? given = some entry ∧
      entry ∈ now.entriesOf key

/- A check fails with its error, or all succeeds. -/
def Answers
    (errand : Errand)
    (outcome : Except Error errand.Answer)
    (now : Contents) : Prop :=
  (∃ error, errand.check = .error error ∧
    outcome = .error error) ∨
  errand.check = .ok () ∧
    ∃ given, outcome = .ok given ∧ errand.Gives given now

end Errand

/- What a job was told, if it is over and succeeded. -/
def Job.entry? (job : Job) : Option Entry :=
  match job.rest with
  | .done (.ok given) => job.errand.entry? given
  | _ => none

theorem Job.exists_answer
    (job : Job)
    {entry : Entry}
    (hEntry : job.entry? = some entry) :
    ∃ session errand given,
      job = ⟨session, errand, .done (.ok given)⟩ ∧
        errand.entry? given = some entry := by
  rcases job with ⟨session, errand, rest⟩
  cases rest with
  | done outcome =>
      cases outcome with
      | ok given =>
          exact ⟨session, errand, given, rfl, hEntry⟩
      | error error => cases hEntry
  | ask | cached => cases hEntry

/- What a creation may do to the store. -/
def creationPledge (errand : Errand) : Pledge where
  adds := Contents.Adds errand.key? errand.kind
  commits _ _ := False
  stays := .refl _ _
  adds_widens := Contents.Adds.widens
  commits_widens := False.elim

/- Keys are unique, and no call of the store fails. -/
def keyedConcord : Concord where
  such := Contents.Keyed
  keyed := id
  trouble := .none
  early := nofun

theorem permits_creation
    {errand : Errand}
    {seen : Contents}
    {added : Statement}
    (hAdds : ∀ {clock before answer after},
      added.run clock before = .ok (answer, after) →
        before.Adds errand.key? errand.kind after) :
    Permits keyedConcord (creationPledge errand) seen
      added :=
  fun _ _ _ _ _ hKeyed hRun => ⟨hAdds hRun,
    hKeyed.effect (Statement.effect hRun)⟩

theorem leads_answers
    {errand : Errand}
    {program : Program errand.Answer}
    {pledge : Pledge}
    {seen : Contents}
    {good : errand.Answer → Contents → Prop}
    (hLeads : program.Leads keyedConcord pledge
      (Passes keyedConcord errand.check good) seen)
    (hGives : ∀ given now, good given now →
      errand.Gives given now) :
    program.Leads keyedConcord pledge errand.Answers seen := by
  refine hLeads.mono ?_
  rintro outcome now - (hFails | ⟨hCheck, hGets⟩)
  · exact Or.inl hFails
  cases outcome with
  | ok given =>
      exact Or.inr ⟨hCheck, given, rfl, hGives given now hGets⟩
  | error error => exact absurd rfl hGets

/- A creation tried twice gives the row, or fails its check. -/
theorem leads_creation
    {policies : Policies}
    {errand : Errand}
    {seen : Contents}
    (hCreates : errand.key?.isSome)
    (hRows : 2 ≤ policies.rows.attempts)
    (hValues : 2 ≤ policies.values.attempts)
    (hReady : errand.IsReady seen)
    (hKeyed : seen.Keyed) :
    (errand.program policies).Leads keyedConcord
      (creationPledge errand) errand.Answers seen := by
  cases errand with
  | resolveTable name intent numeric =>
      cases intent with
      | lookup => cases hCreates
      | create =>
          have hPermits : Permits keyedConcord
              (creationPledge
                (.resolveTable name .create numeric)) seen
              (.addTable name numeric) := by
            refine permits_creation fun hRun => ?_
            exact (Contents.adds_addTable hRun).1
          refine leads_answers
            (Tables.leads_resolve hRows hKeyed hPermits) ?_
          rintro _ now ⟨row, hRow, rfl, rfl⟩
          exact ⟨_, _, rfl, rfl,
            Contents.mem_entriesOf_table_iff.2
              ⟨row, hRow, rfl, rfl⟩⟩
  | resolveAttribute tableId name intent numeric =>
      cases intent with
      | lookup => cases hCreates
      | create =>
          have hPermits : Permits keyedConcord
              (creationPledge
                (.resolveAttribute tableId name .create
                  numeric)) seen
              (.addAttribute tableId name numeric) := by
            refine permits_creation fun hRun => ?_
            exact (Contents.adds_addAttribute hRun).1
          refine leads_answers
            (Attributes.leads_resolve hRows hKeyed hReady
              hPermits) ?_
          rintro _ now ⟨row, hRow, rfl, rfl, rfl⟩
          exact ⟨_, _, rfl, rfl,
            Contents.mem_entriesOf_column_iff.2
              ⟨row, hRow, ⟨rfl, rfl⟩, rfl⟩⟩
  | resolveValue content intent =>
      cases intent with
      | lookup => cases hCreates
      | create =>
          have hPermits : Permits keyedConcord
              (creationPledge
                (.resolveValue content .create)) seen
              (.addValue content) := by
            refine permits_creation fun hRun => ?_
            exact (Contents.adds_addValue hRun).1
          refine leads_answers
            (Values.leads_resolve hValues hKeyed
              fun _ => hPermits) ?_
          rintro _ now ⟨id, rfl, hRow⟩
          exact ⟨_, _, rfl, rfl,
            Contents.mem_entriesOf_value_iff.2
              ⟨_, hRow, rfl, rfl⟩⟩
  | resolveItem tableId valueId intent =>
      cases intent with
      | lookup => cases hCreates
      | create =>
          have hPermits : Permits keyedConcord
              (creationPledge
                (.resolveItem tableId valueId .create)) seen
              (.addItem tableId valueId) := by
            refine permits_creation fun hRun => ?_
            exact (Contents.adds_addItem hRun).1
          refine leads_answers
            ((Items.leads_resolve hRows hReady.1 hReady.2
              hPermits).mono fun _ _ _ hGets =>
                Or.inr ⟨rfl, hGets⟩) ?_
          rintro _ now ⟨row, hRow, rfl, rfl, rfl⟩
          exact ⟨_, _, rfl, rfl,
            Contents.mem_entriesOf_item_iff.2
              ⟨row, hRow, ⟨rfl, rfl⟩, rfl⟩⟩
  | _ => cases hCreates

/- Errands that create, with two attempts at least. -/
def creating : Terms where
  concord := keyedConcord
  takes policies errand := errand.key?.isSome ∧
    2 ≤ policies.rows.attempts ∧ 2 ≤ policies.values.attempts
  pledge := creationPledge
  good errand outcome _ now := errand.Answers outcome now
  good_later hWidens hAnswers := by
    rcases hAnswers with hFails |
      ⟨hCheck, given, rfl, key, entry, hKey, hGiven, hEntry⟩
    · exact Or.inl hFails
    · exact Or.inr ⟨hCheck, given, rfl, key, entry, hKey,
        hGiven, hWidens.mem_entriesOf hEntry⟩
  amid := by
    rintro policies errand contents
      ⟨hCreates, hRows, hValues⟩ hReady hKeyed
    refine Amid.mono (leads_creation hCreates hRows hValues
      hReady hKeyed) ?_
    rintro outcome _ ⟨now, rfl, -, -, hGood⟩
    exact ⟨false, now, rfl, hGood⟩

------------------------------------------------------------
-- Where rows come from
------------------------------------------------------------

namespace Forum

/-
  Every row was there at first, or some job was to create it
  under its key and with its kind.
-/
def Accounted (first : Contents) (forum : Forum) : Prop :=
  ∀ key, ∀ entry ∈ forum.committed.entriesOf key,
    entry ∈ first.entriesOf key ∨
      ∃ errand ∈ forum.errands, errand.key? = some key ∧
        errand.kind = entry.numeric

theorem Accounted.moved
    {first : Contents}
    {before after : Forum}
    (hAccounted : before.Accounted first)
    (hMoved : before.Moved creating after) :
    after.Accounted first := by
  intro key entry hEntry
  cases hMoved with
  | rests hErrands hSame _ =>
      rw [hSame] at hEntry
      rw [hErrands]
      exact hAccounted key entry hEntry
  | starts errand hErrands hSame _ =>
      rw [hSame] at hEntry
      rw [hErrands]
      refine (hAccounted key entry hEntry).imp_right ?_
      rintro ⟨old, hOld, hRest⟩
      exact ⟨old, List.mem_append_left _ hOld, hRest⟩
  | @adds index errand hErrand hErrands hAdds _ =>
      rw [hErrands]
      rcases hAdds.new key entry hEntry with
        hOld | ⟨hKey, hKind⟩
      · exact hAccounted key entry hOld
      · exact Or.inr ⟨errand, List.mem_of_getElem? hErrand,
          hKey, hKind.symm⟩
  | commits _ _ hCommits _ => exact hCommits.elim

------------------------------------------------------------
-- Agreement
------------------------------------------------------------

/- A job for a key was told of an entry. -/
def Told (forum : Forum) (key : Key) (entry : Entry) : Prop :=
  ∃ job ∈ forum.jobs, job.errand.key? = some key ∧
    job.entry? = some entry

/- The jobs agree with each other and with the store. -/
structure Converged (first : Contents) (forum : Forum) :
    Prop where
  /- A job that is over has failed its check or succeeded. -/
  answers : ∀ session errand outcome,
    ⟨session, errand, .done outcome⟩ ∈ forum.jobs →
      errand.Answers outcome forum.committed
  /- Jobs for one key were told the same, -/
  same : ∀ key entry found,
    forum.Told key entry → forum.Told key found →
      entry = found
  /- and jobs for different keys of different rows. -/
  different : ∀ key other entry found,
    key.dictionary = other.dictionary → key ≠ other →
      forum.Told key entry → forum.Told other found →
        entry.id ≠ found.id
  /- What jobs were told is in the store, -/
  there : ∀ key entry,
    forum.Told key entry →
      entry ∈ forum.committed.entriesOf key
  /- and so is what was there at first. -/
  kept : ∀ key, ∀ entry ∈ first.entriesOf key,
    entry ∈ forum.committed.entriesOf key
  /- No key has more than one row. -/
  single : ∀ key, ∀ entry ∈ forum.committed.entriesOf key,
    forum.committed.entriesOf key = [entry]
  /- New rows are of a kind that was asked for. -/
  accounted : forum.Accounted first

/-
  Sessions create rows at the same time, each job with two
  attempts at least.  All converge, no job is stuck, and the
  store is free when all are over.
-/
theorem creations_converge
    {circle : Circle}
    (hStarts : circle.Starts creating.concord)
    {moves : List Move}
    (hCreates : ∀ move ∈ moves, creating.Admits move)
    {forum : Forum}
    (hFollow : (Forum.of circle).follow moves = some forum) :
    forum.Converged circle.contents ∧
      (forum.isOver →
        forum.circle.contents = forum.committed) ∧
      (forum.isOver = false →
        ∃ index next, forum.step? index = some next) := by
  have hFirst : (Forum.of circle).Along creating 0
      (.apart false circle.contents) :=
    .of_starts hStarts
  rcases hFirst.follow hCreates hFollow with
    ⟨⟨holder, standing, hAlong⟩, hMoves⟩
  have hStart : (Forum.of circle).committed =
      circle.contents := hFirst.committed
  have hWidens : circle.contents.Widens forum.committed := by
    rw [← hStart]
    exact widens_of_moves hMoves
  have hKeyed : forum.committed.Keyed :=
    hAlong.committed ▸ hAlong.such
  have hAnswers : ∀ session errand outcome,
      ⟨session, errand, .done outcome⟩ ∈ forum.jobs →
        errand.Answers outcome forum.committed := by
    intro session errand outcome hJob
    rcases List.getElem?_of_mem hJob with ⟨index, hIndex⟩
    exact hAlong.good hIndex
  have hThere : ∀ key entry, forum.Told key entry →
      entry ∈ forum.committed.entriesOf key := by
    rintro key entry ⟨job, hJob, hKey, hEntry⟩
    rcases job.exists_answer hEntry with
      ⟨session, errand, given, rfl, hGiven⟩
    rcases hAnswers _ _ _ hJob with ⟨_, -, ⟨⟩⟩ |
      ⟨-, _, ⟨⟩, key', entry', hKey', hEntry', hMem⟩
    cases hKey.symm.trans hKey'
    cases hGiven.symm.trans hEntry'
    exact hMem
  refine ⟨?_, hAlong.contents_of_isOver, hAlong.exists_step⟩
  exact
    { answers := hAnswers
      same := fun key entry found hEntry hFound =>
        hKeyed.entry_unique (hThere key entry hEntry)
          (hThere key found hFound)
      different := fun key other entry found hSame hOther
          hEntry hFound hId =>
        hOther ((hKeyed.id_eq_iff hSame
          (hThere key entry hEntry)
          (hThere other found hFound)).1 hId)
      there := hThere
      kept := fun key entry hEntry =>
        hWidens.mem_entriesOf hEntry
      single := fun key entry hEntry =>
        hKeyed.entriesOf_eq hEntry
      accounted := hMoves.rec
        (fun key entry hEntry => Or.inl (hStart ▸ hEntry))
        fun _ hMoved hAccounted => hAccounted.moved hMoved }

/-
  Two sessions look for a table of one name, miss it, and add
  it with different kinds; one is too late and looks again.
-/
def racing : List Move :=
  [.start 0 default (.resolveTable "t" .create true),
    .start 1 default (.resolveTable "t" .create false)] ++
    [0, 1, 0, 1, 0, 1, 0, 1, 1].map Move.step

/- Both are told of the table that was added first. -/
theorem creations_converge_race :
    ∃ forum,
      (Forum.of
        (Circle.of (calm Moment.new.shared).store)).follow
          racing = some forum ∧
      (forum.isOver ∧
        forum.jobs.map Job.entry? =
          [some ⟨1, some true⟩, some ⟨1, some true⟩] ∧
        forum.circle.contents.tables.rows =
          [⟨1, "t", true⟩]) ∧
      forum.Converged .empty := by
  have hRace :
      ((Forum.of
        (Circle.of (calm Moment.new.shared).store)).follow
          racing).map (fun forum => decide (forum.isOver ∧
            forum.jobs.map Job.entry? =
              [some ⟨1, some true⟩, some ⟨1, some true⟩] ∧
            forum.circle.contents.tables.rows =
              [⟨1, "t", true⟩])) = some true := by
    decide +kernel
  rcases Option.map_eq_some_iff.1 hRace with
    ⟨forum, hFollow, hFacts⟩
  have hTwice : 2 ≤ (default : Policies).rows.attempts ∧
      2 ≤ (default : Policies).values.attempts := by decide
  have hCreates : ∀ move ∈ racing, creating.Admits move := by
    simp [racing, Terms.Admits, creating, Errand.key?, hTwice]
  exact ⟨forum, hFollow, of_decide_eq_true hFacts,
    (creations_converge
      (.of_reachable .refl Contents.Sound.keyed (by
        simp [Faults.none, Faults.Within]))
      hCreates hFollow).1⟩

end Forum

end Session

end SparseTables
