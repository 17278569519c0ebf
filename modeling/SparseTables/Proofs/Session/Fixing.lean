import SparseTables.Proofs.Program.Keeping
import SparseTables.Proofs.Session.Dropping
import SparseTables.Proofs.Sessions.Coherence

/-
  This file states what callers can rely on about the kinds
  of tables and attributes, at any time in the history of a
  store.

  The kind of a name is fixed by what is written under it
  first, and stays until the table is dropped or everything
  is reset.  A request succeeds if all that it sets is of the
  kinds that are fixed, and is refused for the first scalar
  that is not.

  Main declarations:
    * `Kinds.among`
    * `Kinds.Fit`
    * `Kinds.judge_eq_ok_iff`
    * `Define.Fits`
    * `Define.Offends`
    * `Session.Spares`
    * `Session.define_goes_by_kinds`
-/

namespace SparseTables

open Program

------------------------------------------------------------
-- Kinds that entries fix
------------------------------------------------------------

/- The kind of the first scalar that is set under a name. -/
def firstKind
    (name : String)
    (entries : List (String × Option Scalar)) : Option Bool :=
  entries.findSome? fun entry =>
    if entry.1 = name then entry.2.map Scalar.isNumeric
    else none

namespace Kinds

variable {kinds : Kinds}
variable {rest : List (String × Option Scalar)}

/-
  The kinds after some entries: those from before, and for
  the other names the kinds of what the entries set first.
-/
def among
    (kinds : Kinds)
    (entries : List (String × Option Scalar)) : Kinds :=
  fun name => (kinds name).or (firstKind name entries)

/- Every scalar is of the kind that its name is fixed to. -/
def Fit
    (kinds : Kinds)
    (entries : List (String × Option Scalar)) : Prop :=
  ∀ before name content after,
    entries = before ++ (name, some content) :: after →
      ∀ kind ∈ kinds.among before name,
        kind = content.isNumeric

/- The error for the first scalar that is of another kind. -/
inductive Offends
    (kinds : Kinds)
    (entries : List (String × Option Scalar)) :
    Error → Prop where
  | entry
      {before after : List (String × Option Scalar)}
      {name : String}
      {content : Scalar}
      {kind : Bool}
      (hEntries : entries =
        before ++ (name, some content) :: after)
      (hBefore : kinds.Fit before)
      (hFixed : kinds.among before name = some kind)
      (hOther : kind ≠ content.isNumeric) :
      Offends kinds entries
        (.typeMismatch name content content.isNumeric kind)

@[simp]
theorem among_nil (kinds : Kinds) :
    kinds.among [] = kinds := by
  funext name
  simp [among, firstKind]

/- An erasing entry fixes nothing. -/
theorem among_erase (name : String) :
    kinds.among ((name, none) :: rest) = kinds.among rest := by
  funext other
  simp [among, firstKind]

theorem among_set (name : String) (content : Scalar) :
    kinds.among ((name, some content) :: rest) =
      (kinds.fix name content.isNumeric).among rest := by
  funext other
  by_cases hSame : name = other
  · subst hSame
    cases hKind : kinds name <;>
      simp [among, firstKind, fix, hKind]
  · simp [among, firstKind, fix, hSame, Ne.symm hSame]

theorem fit_nil : kinds.Fit [] := by
  simp [Fit]

theorem fit_erase_iff {name : String} :
    kinds.Fit ((name, none) :: rest) ↔ kinds.Fit rest := by
  constructor
  · rintro hFit before other content after rfl
    have hLater := hFit ((name, none) :: before) other content
      after rfl
    rwa [among_erase] at hLater
  · intro hFit before other content after hEntries
    cases before with
    | nil => cases hEntries
    | cons first before =>
        cases hEntries
        rw [among_erase]
        exact hFit before other content after rfl

theorem fit_set_iff {name : String} {content : Scalar} :
    kinds.Fit ((name, some content) :: rest) ↔
      (∀ kind ∈ kinds name, kind = content.isNumeric) ∧
        (kinds.fix name content.isNumeric).Fit rest := by
  constructor
  · intro hFit
    constructor
    · have hFirst := hFit [] name content rest rfl
      rwa [among_nil] at hFirst
    · rintro before other given after rfl
      have hLater := hFit ((name, some content) :: before)
        other given after rfl
      rwa [among_set] at hLater
  · rintro ⟨hFirst, hRest⟩ before other given after hEntries
    cases before with
    | nil =>
        cases hEntries
        rwa [among_nil]
    | cons first before =>
        cases hEntries
        rw [among_set]
        exact hRest before other given after rfl

/- A scalar is refused that is not of the fixed kind. -/
theorem checkKind_eq
    (kinds : Kinds)
    (name : String)
    (content : Scalar) :
    ((∀ kind ∈ kinds name, kind = content.isNumeric) ∧
      Session.checkKind name content
        ((kinds name).getD content.isNumeric) = .ok ()) ∨
    ∃ kind, kinds name = some kind ∧
      kind ≠ content.isNumeric ∧
      Session.checkKind name content
        ((kinds name).getD content.isNumeric) =
          .error (.typeMismatch name content
            content.isNumeric kind) := by
  cases hKind : kinds name with
  | none => exact .inl ⟨by simp, if_pos rfl⟩
  | some kind =>
      by_cases hSame : kind = content.isNumeric
      · exact .inl ⟨by simpa using hSame, if_pos hSame⟩
      · exact .inr ⟨kind, rfl, hSame, if_neg hSame⟩

/- Entries pass if they fit, or fail for the first offence. -/
theorem judge_spec
    (kinds : Kinds)
    (entries : List (String × Option Scalar)) :
    (kinds.Fit entries ∧ kinds.judge entries = .ok ()) ∨
      ∃ error, ¬ kinds.Fit entries ∧
        kinds.Offends entries error ∧
        kinds.judge entries = .error error := by
  induction entries generalizing kinds with
  | nil => exact .inl ⟨fit_nil, rfl⟩
  | cons entry rest ih =>
      rcases entry with ⟨name, _ | content⟩
      · rw [fit_erase_iff, judge]
        refine (ih kinds).imp_right ?_
        rintro ⟨error, hNot, hOffends, hJudge⟩
        refine ⟨error, hNot, ?_, hJudge⟩
        cases hOffends with
        | entry hEntries hBefore hFixed hOther =>
            exact .entry (congrArg _ hEntries)
              (fit_erase_iff.2 hBefore)
              ((congrFun (among_erase name) _).trans hFixed)
              hOther
      rw [fit_set_iff, judge]
      rcases checkKind_eq kinds name content with
        ⟨hKind, hPasses⟩ | ⟨kind, hFixed, hOther, hRefused⟩
      · rw [hPasses]
        rcases ih (kinds.fix name content.isNumeric) with
          ⟨hFit, hJudge⟩ | ⟨error, hNot, hOffends, hJudge⟩
        · exact .inl ⟨⟨hKind, hFit⟩, hJudge⟩
        refine .inr ⟨error, fun hFit => hNot hFit.2, ?_,
          hJudge⟩
        cases hOffends with
        | entry hEntries hBefore hFixed hOther =>
            exact .entry (congrArg _ hEntries)
              (fit_set_iff.2 ⟨hKind, hBefore⟩)
              ((congrFun (among_set name content) _).trans
                hFixed) hOther
      · rw [hRefused]
        refine .inr ⟨_, fun hFit =>
          hOther (hFit.1 kind hFixed), ?_, rfl⟩
        exact .entry (List.nil_append _).symm fit_nil
          (by rwa [among_nil]) hOther

end Kinds

------------------------------------------------------------
-- Kinds that are fixed
------------------------------------------------------------

namespace Define

/-
  Is all that a request sets of the kinds that are fixed?  The
  key must be of the kind of the table, if there is one.
-/
structure Fits
    (request : Define)
    (contents : Contents) : Prop where
  key : ∀ table,
    contents.tableNamed? request.table = some table →
      table.numeric = request.key.isNumeric
  entries :
    (contents.kindsIn request.table).Fit request.entries

/- The error for the first part that is of another kind. -/
inductive Offends
    (request : Define)
    (contents : Contents) : Error → Prop where
  | key
      {table : Table}
      (hTable :
        contents.tableNamed? request.table = some table)
      (hOther : table.numeric ≠ request.key.isNumeric) :
      Offends request contents
        (.typeMismatch request.table request.key
          request.key.isNumeric table.numeric)
  | entry
      {error : Error}
      (hKey : ∀ table,
        contents.tableNamed? request.table = some table →
          table.numeric = request.key.isNumeric)
      (hEntry : (contents.kindsIn request.table).Offends
        request.entries error) :
      Offends request contents error

/- A request passes if it fits, or fails as it offends. -/
theorem verdict_spec
    (request : Define)
    (contents : Contents) :
    (request.Fits contents ∧
      request.verdict contents = .ok ()) ∨
    ∃ error, ¬ request.Fits contents ∧
      request.Offends contents error ∧
      request.verdict contents = .error error := by
  have hKeys := Kinds.checkKind_eq
    (fun name => (contents.tableNamed? name).map
      Table.numeric) request.table request.key
  rw [verdict]
  rcases hKeys with
    ⟨hKind, hPasses⟩ | ⟨kind, hFixed, hOther, hRefused⟩
  · have hKey : ∀ table,
        contents.tableNamed? request.table = some table →
          table.numeric = request.key.isNumeric :=
      fun table hTable =>
        hKind table.numeric (by simp [hTable])
    rw [hPasses]
    rcases (contents.kindsIn request.table).judge_spec
      request.entries with
      ⟨hFit, hJudge⟩ | ⟨error, hNot, hOffends, hJudge⟩
    · exact .inl ⟨⟨hKey, hFit⟩, hJudge⟩
    · exact .inr ⟨error, fun hFits => hNot hFits.entries,
        .entry hKey hOffends, hJudge⟩
  · rcases Option.map_eq_some_iff.1 hFixed with
      ⟨table, hTable, rfl⟩
    rw [hRefused]
    exact .inr ⟨_, fun hFits =>
      hOther (hFits.key table hTable), .key hTable hOther,
        rfl⟩

end Define

------------------------------------------------------------
-- What later calls keep
------------------------------------------------------------

namespace Session

/-
  What comes next, when it is not part of a call that drops a
  table or resets the dictionaries.
-/
def Spares (moment next : Moment) : Prop :=
  Moves moment next ∧
    ∀ going ∈ next.going, going.call.removes = false

/- One such moment after another. -/
def LeadsSparing : Moment → Moment → Prop :=
  Relation.ReflTransGen Spares

theorem LeadsSparing.leads
    {moment later : Moment}
    (hSparing : LeadsSparing moment later) :
    Leads moment later :=
  Relation.ReflTransGen.mono
    (fun _ _ hSpares => hSpares.1) _ _ hSparing

/-
  The contents, and those that an undo may restore, are such,
  and a call that is going on makes no statement that removes
  from the dictionaries.
-/
structure Moment.Retaining
    (such : Contents → Prop)
    (moment : Moment) : Prop where
  engine : moment.shared.store.engine.Keeps such
  going : ∀ going ∈ moment.going, ∃ phase,
    going.rest.Asks Statement.Leaves
      (fun phase => phase = .apart) phase

theorem Moment.Retaining.spares
    {start : Contents}
    {moment next : Moment}
    (hRetaining : moment.Retaining start.Retains)
    (hSpares : Spares moment next) :
    next.Retaining start.Retains := by
  rcases hSpares with ⟨hMoves, hCall⟩
  cases hMoves with
  | start policies call shared =>
      refine ⟨hRetaining.engine, ?_⟩
      rintro _ ⟨⟩
      have hBound := (call.agrees policies).bound
      exact ⟨.apart, Asks.mono hBound
        (fun asked hMay => hMay.leaves (hCall _ rfl))
        fun _ hPhase => hPhase⟩
  | step hStep =>
      rcases hRetaining.going _ rfl with ⟨phase, hAsks⟩
      rcases hAsks.step
        (fun asked hLeaves => hLeaves.keeps_retained start)
        hRetaining.engine hStep with ⟨hEngine, hLater⟩
      refine ⟨hEngine, ?_⟩
      rintro _ ⟨⟩
      exact hLater
  | finish call outcome shared =>
      exact ⟨hRetaining.engine, by rintro _ ⟨⟩⟩
  | setClock | setFaults | renew =>
      exact ⟨⟨hRetaining.engine.contents,
        hRetaining.engine.saved⟩, by rintro _ ⟨⟩⟩

/- The dictionaries only grow while calls spare them. -/
theorem LeadsSparing.retains
    {shared : Shared}
    (hRest : AtRest shared)
    {later : Moment}
    (hSparing : LeadsSparing ⟨shared, none⟩ later) :
    shared.contents.Retains later.contents := by
  suffices hLater :
      later.Retaining shared.contents.Retains from
    hLater.engine.contents
  induction hSparing with
  | refl =>
      refine ⟨⟨.refl _, ?_⟩, by rintro _ ⟨⟩⟩
      rw [show shared.store.engine.hold = none from hRest.free]
      rintro _ ⟨⟩
  | tail _ hSpares ih => exact ih.spares hSpares

/- A call that spares the dictionaries leads to its end. -/
theorem LeadsSparing.after_call
    {shared : Shared}
    (hRest : AtRest shared)
    (policies : Policies)
    {call : Call}
    (hCall : call.removes = false) :
    LeadsSparing ⟨shared, none⟩
      ⟨((call.program policies).advance shared).2, none⟩ := by
  have hSpares : ∀ {rest : Program call.Answer},
      ∀ going ∈ some (⟨call, rest⟩ : Going),
        going.call.removes = false := by
    rintro rest _ ⟨⟩
    exact hCall
  refine .head ⟨.start policies call shared, hSpares⟩ ?_
  exact chain_of_runs (fun _ => True)
    (fun outcome shared _ =>
      ⟨.finish call outcome shared, by rintro _ ⟨⟩⟩)
    (fun _ hStep => ⟨trivial, .step hStep, hSpares⟩)
    trivial (hRest.runs policies call)

------------------------------------------------------------
-- Kinds stay
------------------------------------------------------------

end Session

/-
  Tables and attributes are still there, with their
  identities and kinds, and found under their names.
-/
structure Contents.Fixes (before after : Contents) :
    Prop where
  tables : ∀ table ∈ before.tables.rows,
    after.tableNamed? table.name = some table
  attributes : ∀ attr_ ∈ before.attributes.rows,
    after.attributeNamed? attr_.tableId attr_.name =
      some attr_

namespace Session

/-
  When nothing fails, a request with proper names and scalars
  succeeds if and only if all that it sets is of the kinds
  that are fixed: by what the dictionaries say, or by the
  entries before.  If not, it is refused for the first scalar
  that is of another kind, with both kinds.  What is fixed
  stays, whatever is called or fails later on, until a table
  is dropped or everything is reset.
-/
theorem define_goes_by_kinds
    {shared : Shared}
    (hReachable : Reachable shared) :
    (∀ policies request, Define.Proper request →
      ∃ outcome after,
        (define policies request).advance (calm shared) =
            (.finished outcome, after) ∧
          ((∃ id, outcome = .ok id) ↔
            request.Fits shared.contents) ∧
          (¬ request.Fits shared.contents →
            ∃ error, outcome = .error error ∧
              request.Offends shared.contents error)) ∧
      ∀ later, LeadsSparing ⟨shared, none⟩ later →
        shared.contents.Fixes later.contents := by
  have hRest := hReachable.atRest
  constructor
  · intro policies request hProper
    rcases comesTo_define hRest.sound policies hProper with
      ⟨outcome, target, hComes, hVerdict, -⟩
    rcases hComes shared.caches hRest.mirrors with
      ⟨kept, hEnds, -⟩
    rcases hRest.ends hEnds with ⟨after, hRun, -⟩
    refine ⟨outcome, after, hRun, ?_⟩
    change _ = request.verdict shared.contents at hVerdict
    rcases request.verdict_spec shared.contents with
      ⟨hFits, hOk⟩ | ⟨error, hNot, hOffends, hError⟩
    · rw [hOk] at hVerdict
      cases outcome with
      | error error => cases hVerdict
      | ok id =>
          exact ⟨iff_of_true ⟨id, rfl⟩ hFits,
            fun hNot => absurd hFits hNot⟩
    · rw [hError] at hVerdict
      cases outcome with
      | ok id => cases hVerdict
      | error given =>
          cases hVerdict
          exact ⟨iff_of_false (by simp) hNot,
            fun _ => ⟨error, rfl, hOffends⟩⟩
  · intro later hSparing
    have hRetains := hSparing.retains hRest
    have hSound : later.contents.Sound :=
      (Moment.sound_and_aged hReachable hSparing.leads).1
    exact ⟨fun table hTable =>
      hSound.tableNamed?_eq_some_iff.2
        ⟨hRetains.tables table hTable, rfl⟩,
      fun attr_ hAttr => hSound.attributeNamed?_eq_some_iff.2
        ⟨hRetains.attributes attr_ hAttr, rfl, rfl⟩⟩

/- A request that fixes the kind of a name and breaks it. -/
def breaking : Define :=
  ⟨"t", .text "l",
    [("a", none), ("b", none), ("b", some (.ofInt 1)),
      ("b", some (.text "x"))]⟩

/- It is refused for its last entry, but the name is fixed. -/
theorem define_goes_by_kinds_broken :
    ∃ after,
      (define default breaking).advance (calm withOwned) =
        (.finished (.error (.typeMismatch "b" (.text "x")
          false true)), after) ∧
      ¬ breaking.Fits withOwned.contents ∧
      withOwned.contents.Fixes after.contents ∧
      after.contents.attributeNamed? 1 "b" =
        some ⟨2, 1, "b", true⟩ := by
  have hReachable : Reachable withOwned :=
    Reachable.after_call .refl default
      (.define ⟨"t", .text "k", [("a", some (.text "x"))]⟩)
  have hCalm : Reachable (calm withOwned) :=
    hReachable.tail (.setFaults .none _)
  have hProper : breaking.Proper := by
    constructor <;> decide +kernel
  have hError : ((define default breaking).advance
      (calm withOwned)).1 = .finished (.error
        (.typeMismatch "b" (.text "x") false true)) :=
    Progress.eq_of_error? (by decide +kernel)
  rcases define_goes_by_kinds hCalm with ⟨hDefine, hFixes⟩
  rcases hDefine default breaking hProper with
    ⟨outcome, after, hRun, hFits, -⟩
  change (define default breaking).advance
    (calm withOwned) = _ at hRun
  have hSpares := LeadsSparing.after_call hCalm.atRest default
    (rfl : (Call.define breaking).removes = false)
  rw [hRun] at hError
  cases hError
  refine ⟨after, hRun, fun hFit => ?_, ?_, ?_⟩
  · rcases hFits.2 hFit with ⟨id, hOk⟩
    cases hOk
  · have hAfter := hFixes _ hSpares
    rw [Call.program, hRun] at hAfter
    exact hAfter
  · have hFound : (((define default breaking).advance
        (calm withOwned)).2.contents.attributeNamed? 1 "b") =
          some ⟨2, 1, "b", true⟩ := by
      decide +kernel
    rwa [hRun] at hFound

end Session

end SparseTables
