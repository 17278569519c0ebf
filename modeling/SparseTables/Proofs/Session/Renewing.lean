import SparseTables.Proofs.Query.Itemless
import SparseTables.Proofs.Session.Forgetting
import SparseTables.Proofs.Session.Parallel
import SparseTables.Proofs.Session.Restarting

/-
  This file compares a store that was reset with one in which
  what is gone has never been.

  The identities of the rows that are gone stay taken, so the
  two stores have the same rows under shifted identities.  No
  call shows these but for the items that are defined.

  Main declarations:
    * `Contents.renewed`
    * `Contents.renewed_shifted`
    * `Session.Call.IsPlain`
    * `Session.Beside`
    * `Session.Beside.play`
    * `Session.reset_renews`
-/

namespace SparseTables

open Program

------------------------------------------------------------
-- Contents
------------------------------------------------------------

namespace Contents

/- The contents as if what is wiped had never been. -/
def renewed
    (contents : Contents)
    (dictionaries : Bool) : Contents :=
  if dictionaries then
    .empty
  else
    { contents with items := .empty, slots := [] }

/- The identities that stay taken. -/
def taken
    (contents : Contents)
    (dictionaries : Bool) : Shift :=
  if dictionaries then
    { tables := contents.tables.last
      attributes := contents.attributes.last
      values := contents.values.last
      items := contents.items.last }
  else
    { tables := 0
      attributes := 0
      values := 0
      items := contents.items.last }

@[simp] theorem items_taken
    (contents : Contents)
    (dictionaries : Bool) :
    (contents.taken dictionaries).items =
      contents.items.last := by
  cases dictionaries <;> rfl

/- Wiped contents differ from renewed ones by these alone. -/
theorem renewed_shifted
    (contents : Contents)
    (dictionaries : Bool) :
    (contents.renewed dictionaries).shifted
        (contents.taken dictionaries) =
      contents.wiped dictionaries := by
  cases dictionaries with
  | true =>
      simp [renewed, taken, wiped, empty, shifted,
        Register.shifted, Register.empty, Register.wiped]
  | false =>
      have hTables : Table.shifted (contents.taken false) =
          id := by
        funext row
        simp [Table.shifted, taken]
      have hAttributes :
          Attribute.shifted (contents.taken false) = id := by
        funext row
        simp [Attribute.shifted, taken]
      have hValues : Value.shifted (contents.taken false) =
          id := by
        funext row
        simp [Value.shifted, taken]
      simp only [renewed, wiped, shifted, Register.shifted,
        hTables, hAttributes, hValues, List.map_id]
      simp [taken, Register.empty, Register.wiped]

theorem Sound.renewed
    {contents : Contents}
    (hSound : contents.Sound)
    (dictionaries : Bool) :
    (contents.renewed dictionaries).Sound := by
  cases dictionaries with
  | true => exact Sound.empty
  | false =>
      exact
        { hSound with
          items := Register.Ordered.empty
          itemKeys := List.nodup_nil
          slotKeys := List.nodup_nil
          itemsFit := nofun
          slotsFit := nofun
          slotItems := nofun }

end Contents

namespace Session

------------------------------------------------------------
-- Calls
------------------------------------------------------------

namespace Call

/- No identities are given or shown but of defined items. -/
def IsPlain : Call → Prop
  | define _ | createTable _ _ | delete _ _ => True
  | dropTable _ | get _ | schema _ => True
  | select query => query.IdFree
  | _ => False

instance : (call : Call) → Decidable call.IsPlain
  | define _ | createTable _ _ | delete _ _ => isTrue trivial
  | dropTable _ | get _ | schema _ => isTrue trivial
  | select query => inferInstanceAs (Decidable query.IdFree)
  | reset _ | queryGet _ | item _ | summarize _
  | compile _ | scalar _ | integer _ | list _ | pairs _
  | rowId _ _ | rowValue _ _ => isFalse id

/- The answer with larger identities of items. -/
def renumbered (by_ : Int) :
    (call : Call) → call.Answer → call.Answer
  | define _, id => id + by_
  | createTable _ _, found | delete _ _, found
  | dropTable _, found | reset _, found | get _, found
  | queryGet _, found | item _, found | summarize _, found
  | schema _, found | compile _, found | select _, found
  | scalar _, found | integer _, found | list _, found
  | pairs _, found | rowId _ _, found
  | rowValue _ _, found => found

variable {shift : Shift}

/- A plain call ends alike on shifted contents. -/
theorem echoes
    {clock : Clock}
    {contents : Contents}
    (hSound : contents.Sound)
    (policies : Policies)
    {call : Call}
    (hPlain : call.IsPlain) :
    (call.program policies).Echoes shift
      (call.renumbered shift.items) clock contents
      (call.program policies) := by
  cases call with
  | define request =>
      exact echoes_define policies hSound request
  | createTable name numeric =>
      exact (parallel_createTable policies name
        numeric).echoes
  | delete name keys =>
      exact (parallel_delete policies name keys).echoes
  | dropTable name =>
      exact (parallel_dropTable policies name).echoes
  | get request => exact echoes_get policies hSound request
  | schema table => exact (parallel_schema table).echoes
  | select query =>
      exact (parallel_select policies hPlain).echoes
  | _ => cases hPlain

end Call

/- How far a call came, with larger identities of items. -/
def Answered.renumbered
    (by_ : Int)
    (answered : Answered) : Answered where
  call := answered.call
  progress :=
    match answered.progress with
    | .finished outcome =>
        .finished (outcome.map (answered.call.renumbered by_))
    | .waiting rest => .waiting rest

------------------------------------------------------------
-- Stores beside each other
------------------------------------------------------------

/-
  Two stores between calls, one of them with shifted
  identities, on which no failures are to come.
-/
structure Beside
    (shift : Shift)
    (shared twin : Shared) : Prop where
  rest : AtRest shared
  calm : shared.store.faults = .none
  same : ∃ clock, twin = withClock (shared.shifted shift) clock

variable {shift : Shift} {shared twin : Shared}

/- A call begins at the same time on both. -/
theorem Beside.start
    (hBeside : Beside shift shared twin)
    (turn : Turn) :
    AtRest (turn.start shared) ∧
      (turn.start shared).store.faults = .none ∧
      turn.start twin = (turn.start shared).shifted shift := by
  rcases hBeside with ⟨hRest, hCalm, clock, rfl⟩
  unfold Turn.start
  split
  · exact ⟨{ hRest with mirrors := .empty _ }, hCalm, rfl⟩
  · exact ⟨{ hRest with }, hCalm, rfl⟩

/- A program ends as it echoes. -/
theorem AtRest.echoes
    {α β : Type}
    {program : Program α}
    {twin : Program β}
    {give : α → β}
    (hRest : AtRest shared)
    (hCalm : shared.store.faults = .none)
    (hEchoes : program.Echoes shift give shared.store.clock
      shared.contents twin)
    {outcome : Except Error α}
    {after : Shared}
    (hEnd : program.advance shared =
      (.finished outcome, after)) :
    twin.advance (shared.shifted shift) =
      (.finished (outcome.map give), after.shifted shift) := by
  rcases shared with
    ⟨⟨⟨contents, hold⟩, clock, faults⟩, caches⟩
  have hFree : hold = none := hRest.free
  have hNone : faults = .none := hCalm
  subst hFree hNone
  exact hEchoes caches hRest.mirrors outcome after hEnd

/- A plain call is answered alike. -/
theorem Beside.playTurn
    (hBeside : Beside shift shared twin)
    (policies : Policies)
    {turn : Turn}
    (hPlain : turn.call.IsPlain) :
    (playTurn policies turn shared).1.isFinished ∧
      (Session.playTurn policies turn twin).1 =
        (Session.playTurn policies turn
          shared).1.renumbered shift.items ∧
      Beside shift (Session.playTurn policies turn shared).2
        (Session.playTurn policies turn twin).2 := by
  rcases hBeside.start turn with ⟨hRest, hCalm, hTwin⟩
  rcases (hRest.runs policies turn.call).advance with
    ⟨outcome, after, hEnd, -, hAfter⟩
  have hEcho : (turn.call.program policies).advance
      ((turn.start shared).shifted shift) = _ :=
    hRest.echoes hCalm
      (turn.call.echoes hRest.sound policies hPlain) hEnd
  rw [← hTwin] at hEcho
  have hPlayed : Session.playTurn policies turn shared =
      (⟨turn.call, .finished outcome⟩, after) :=
    playTurn_eq hEnd
  have hPlayedToo : Session.playTurn policies turn twin = _ :=
    playTurn_eq hEcho
  rw [hPlayed, hPlayedToo]
  exact ⟨rfl, rfl, hAfter, calm_of_advance hEnd hCalm, _, rfl⟩

/- So are the calls of a whole session. -/
theorem Beside.play
    (hBeside : Beside shift shared twin)
    (policies : Policies)
    {turns : List Turn}
    (hPlain : ∀ turn ∈ turns, turn.call.IsPlain) :
    (∀ answered ∈ (play policies turns shared).1,
      answered.isFinished) ∧
      (Session.play policies turns twin).1 =
        (Session.play policies turns shared).1.map
          (Answered.renumbered shift.items) := by
  induction turns generalizing shared twin with
  | nil => exact ⟨by simp [Session.play], rfl⟩
  | cons turn rest ih =>
      rcases List.forall_mem_cons.1 hPlain with
        ⟨hTurn, hRest⟩
      rcases hBeside.playTurn policies hTurn with
        ⟨hEnds, hSame, hAfter⟩
      rcases ih hAfter hRest with ⟨hMoreEnd, hMoreSame⟩
      refine ⟨List.forall_mem_cons.2 ⟨hEnds, hMoreEnd⟩, ?_⟩
      simp only [Session.play, List.map_cons]
      rw [hSame, hMoreSame]

@[simp] theorem Answered.isFinished_renumbered
    (by_ : Int)
    (answered : Answered) :
    (answered.renumbered by_).isFinished =
      answered.isFinished := by
  rcases answered with ⟨call, _ | _⟩ <;> rfl

------------------------------------------------------------
-- Stores that are reset
------------------------------------------------------------

/- A store with some contents, before any call. -/
def opened (contents : Contents) : Shared where
  store := ⟨.ofContents contents, .start, .none⟩
  caches := .empty

/-
  When no statement fails, a reset succeeds, and what is left
  is beside a store in which what is gone has never been.
-/
theorem exists_reset
    (hReachable : Reachable shared)
    (dictionaries : Bool) :
    ∃ after,
      (reset dictionaries).advance (calm shared) =
          (.finished (.ok ()), after) ∧
        after.contents = shared.contents.wiped dictionaries ∧
        AtRest after ∧ calm after = after ∧
        Beside (shared.contents.taken dictionaries)
          (opened (shared.contents.renewed dictionaries))
          after := by
  have hRest := hReachable.atRest
  have hNone : Faults.none.Within .none := by
    simp [Faults.Within, Faults.none]
  have hEnds : (reset dictionaries).Ends shared.store.clock
      (.ofContents shared.contents) shared.caches (.ok ())
      (.ofContents (shared.contents.wiped dictionaries))
      .empty :=
    Removal.ends hRest.sound default (.reset dictionaries)
      shared.caches
  rcases hEnds .none hNone with ⟨later, hLater, hAdvance⟩
  have hCalm : later = .none := calm_of_advance hAdvance rfl
  subst hCalm
  have hShared : calm shared =
      ⟨⟨.ofContents shared.contents, shared.store.clock,
        .none⟩, shared.caches⟩ :=
    (atRest_calm hRest).eq_shared .none
  rw [← hShared] at hAdvance
  have hReached : Reachable (calm shared) :=
    hReachable.tail (.setFaults .none shared)
  have hAfter := hReached.after_call default
    (.reset dictionaries)
  change Reachable
    ((reset dictionaries).advance (calm shared)).2 at hAfter
  rw [hAdvance] at hAfter
  refine ⟨_, hAdvance, rfl, hAfter.atRest, rfl, ?_⟩
  refine ⟨⟨rfl, hRest.sound.renewed dictionaries, .empty _⟩,
    rfl, shared.store.clock, ?_⟩
  rw [← Contents.renewed_shifted]
  rfl

/- A store is as it was before, but without items. -/
structure Emptied
    (policies : Policies)
    (shared after : Shared) : Prop where
  tables : after.contents.tables = shared.contents.tables
  attributes :
    after.contents.attributes = shared.contents.attributes
  values : after.contents.values = shared.contents.values
  items : after.contents.items.rows = []
  slots : after.contents.slots = []
  -- a request is refused as before, or finds nothing
  get : ∀ request, ∃ outcome mid last,
    (Session.get policies request).advance (calm shared) =
        (.finished outcome, mid) ∧
      (Session.get policies request).advance after =
        (.finished (outcome.map GetResponse.withoutItems),
          last)
  -- a query that was answered shows nothing but a count
  select : ∀ query, ∃ before mid outcome last,
    (Session.select policies query).advance (calm shared) =
        (.finished before, mid) ∧
      (Session.select policies query).advance after =
        (.finished outcome, last) ∧
      (∀ error, outcome = .error error →
        before = .error error) ∧
      ∀ found, outcome = .ok found →
        found.rows = query.rowsOfNone

/- What requests and queries give once the items are gone. -/
theorem emptied_of_wiped
    {after : Shared}
    (hRest : AtRest shared)
    (hAfter : AtRest after)
    (hCalm : calm after = after)
    (hWiped : after.contents = shared.contents.wiped false)
    (policies : Policies) :
    Emptied policies shared after := by
  constructor
  case tables => rw [hWiped]; rfl
  case attributes => rw [hWiped]; rfl
  case values => rw [hWiped]; rfl
  case items => rw [hWiped]; rfl
  case slots => rw [hWiped]; rfl
  case get =>
    intro request
    rcases hRest.get policies request with
      ⟨before, mid, hBefore, hSeen⟩
    rcases hAfter.get policies request with
      ⟨outcome, last, hRun, hFound⟩
    rw [hCalm] at hRun
    rw [hWiped, Contents.respond_wiped, ← hSeen] at hFound
    have hOutcome : outcome =
        before.map GetResponse.withoutItems := by
      cases before with
      | error error =>
          cases outcome <;> cases hFound
          rfl
      | ok response =>
          cases outcome with
          | error error => cases hFound
          | ok found =>
              have hSame := Except.ok.inj hFound
              rw [GetResponse.withoutItems_normalized] at hSame
              exact congrArg Except.ok
                (GetResponse.eq_of_normalized hSame)
    rw [hOutcome] at hRun
    exact ⟨before, mid, last, hBefore, hRun⟩
  case select =>
    intro query
    rcases hRest.reads (ensures_select rfl hRest.sound
      hRest.mirrors policies query) with
      ⟨_, mid, hBefore, rfl⟩
    rcases hAfter.reads (ensures_select rfl hAfter.sound
      hAfter.mirrors policies query) with
      ⟨_, last, hRun, rfl⟩
    rw [hCalm] at hRun
    refine ⟨_, mid, _, last, hBefore, hRun, ?_, ?_⟩
    · intro error hError
      change after.contents.select query = _ at hError
      rw [hWiped] at hError
      exact Contents.select_wiped_refused hError
    · intro found hFound
      change after.contents.select query = _ at hFound
      rw [hWiped] at hFound
      exact Contents.rows_of_no_items rfl hFound

/- Calls are answered as they would be with none gone. -/
def Renews
    (policies : Policies)
    (by_ : Int)
    (fresh after : Shared) : Prop :=
  ∀ turns : List Turn,
    (∀ turn ∈ turns, turn.call.IsPlain) →
      (∀ answered ∈ (play policies turns after).1,
        answered.isFinished) ∧
      (play policies turns after).1 =
        (play policies turns fresh).1.map
          (Answered.renumbered by_)

theorem Beside.renews
    (hBeside : Beside shift shared twin)
    (policies : Policies) :
    Renews policies shift.items shared twin := by
  intro turns hPlain
  rcases hBeside.play policies hPlain with ⟨hEnds, hSame⟩
  refine ⟨fun answered hAnswered => ?_, hSame⟩
  rw [hSame] at hAnswered
  rcases List.mem_map.1 hAnswered with ⟨other, hOther, rfl⟩
  rw [Answered.isFinished_renumbered]
  exact hEnds other hOther

/-
  A store is reset at any time, and no statement fails.  With
  its dictionaries it is from then on as good as a new store:
  whatever plain calls are made, they all come to an end and
  are answered as they are in a new store, but that the items
  that are defined get identities larger by the last one that
  was given out before.

  Without its dictionaries, these are as they were, and all
  items and slots are gone.  Requests and queries find no
  items, and any plain calls are answered as in a store with
  these dictionaries in which there has never been an item.
-/
theorem reset_renews
    (hReachable : Reachable shared)
    (policies : Policies) :
    (∃ after,
      (reset true).advance (calm shared) =
          (.finished (.ok ()), after) ∧
        Renews policies shared.contents.items.last
          Moment.new.shared after) ∧
      ∃ after,
        (reset false).advance (calm shared) =
            (.finished (.ok ()), after) ∧
          Emptied policies shared after ∧
          Renews policies shared.contents.items.last
            (opened { shared.contents with
              items := .empty
              slots := [] })
            after := by
  have hRest := hReachable.atRest
  constructor
  · rcases exists_reset hReachable true with
      ⟨after, hRun, -, -, -, hBeside⟩
    have hRenews := hBeside.renews policies
    rw [Contents.items_taken] at hRenews
    exact ⟨after, hRun, hRenews⟩
  · rcases exists_reset hReachable false with
      ⟨after, hRun, hWiped, hAfter, hCalm, hBeside⟩
    have hRenews := hBeside.renews policies
    rw [Contents.items_taken] at hRenews
    exact ⟨after, hRun,
      emptied_of_wiped hRest hAfter hCalm hWiped policies,
      hRenews⟩

/- A table of numbers, in which an item is defined. -/
def ofNumbers : Define :=
  ⟨"t", .number .zero, [("a", some (.number .zero))]⟩

/- The item is shown, deleted and not found again. -/
def anew : List Turn :=
  [⟨.start, .define ofNumbers, false⟩,
    ⟨.start, .select ((Select.on "t").column "a"), false⟩,
    ⟨.start, .delete "t" [.number .zero], true⟩,
    ⟨.start, .get ⟨"t", [.number .zero]⟩, false⟩]

/- A store with one item is reset in both ways. -/
theorem reset_renews_owned :
    (∃ after,
      (reset true).advance (calm withOwned) =
          (.finished (.ok ()), after) ∧
        (play default anew after).1 =
          (play default anew Moment.new.shared).1.map
            (Answered.renumbered 1) ∧
        (play default anew after).1.head? =
          some ⟨.define ofNumbers,
            .finished (.ok (2 : Int))⟩) ∧
      ∃ after last,
        (reset false).advance (calm withOwned) =
            (.finished (.ok ()), after) ∧
          after.contents.tables.rows = [⟨1, "t", false⟩] ∧
          (get default ⟨"t", [.text "k"]⟩).advance after =
            (.finished (.ok ⟨[none]⟩), last) := by
  have hReachable : Reachable withOwned :=
    .after_call .refl default (.define
      ⟨"t", .text "k", [("a", some (.text "x"))]⟩)
  have hPlain : ∀ turn ∈ anew, turn.call.IsPlain := by
    decide +kernel
  have hLast : withOwned.contents.items.last = 1 := by
    decide +kernel
  have hTables : withOwned.contents.tables.rows =
      [⟨1, "t", false⟩] := by
    decide +kernel
  have hFirst :
      (define default ofNumbers).advance Moment.new.shared =
        (.finished (.ok 1), _) :=
    Prod.ext (Progress.eq_of_result? (by decide +kernel)) rfl
  have hBefore :
      ((get default ⟨"t", [.text "k"]⟩).advance
        (calm withOwned)).1.result?.map
          GetResponse.withoutItems = some ⟨[none]⟩ := by
    decide +kernel
  rcases reset_renews hReachable default with
    ⟨⟨after, hRun, hRenews⟩, emptied, hEmpties, hEmptied, -⟩
  rw [hLast] at hRenews
  have hSame := (hRenews anew hPlain).2
  refine ⟨⟨after, hRun, hSame, ?_⟩, ?_⟩
  · have hPlayed : playTurn default
        ⟨.start, .define ofNumbers, false⟩ Moment.new.shared =
          (⟨.define ofNumbers, .finished (.ok (1 : Int))⟩, _) :=
      playTurn_eq hFirst
    rw [hSame, List.head?_map]
    exact congrArg (fun played =>
      some (Answered.renumbered 1 played.1)) hPlayed
  · rcases hEmptied.get ⟨"t", [.text "k"]⟩ with
      ⟨outcome, mid, last, hFound, hGet⟩
    rw [hFound] at hBefore
    refine ⟨emptied, last, hEmpties, ?_, ?_⟩
    · rw [hEmptied.tables, hTables]
    · cases outcome with
      | error error => cases hBefore
      | ok response =>
          have hItems : response.withoutItems = ⟨[none]⟩ :=
            Option.some.inj hBefore
          rw [hGet]
          simp only [Except.map, hItems]

end Session

end SparseTables
