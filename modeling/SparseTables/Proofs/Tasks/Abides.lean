import SparseTables.Proofs.Tasks.Crowd
import SparseTables.Proofs.Tasks.Scene

/-
  This file gives rules for programs of tasks that share the
  store with others.

  Whatever the others do in between, a task makes only
  requests that leave the rows of dictionaries where they are,
  adds only slots that fit, and keeps only rows in the caches
  that the store has just given.  A task that drops a table
  or wipes the store abides by that until it begins to remove;
  from then on it makes the statements of its duty.

  Main declarations:
    * `Phase`
    * `Duty`
    * `Program.Razes`
    * `Program.Abides`
    * `Program.Abides.settle`
    * `Program.Learns`
    * `Program.Learns.bind`
    * `Policy.learns_run`
    * `Program.learns_transaction`
-/

namespace SparseTables

------------------------------------------------------------
-- Requests
------------------------------------------------------------

/- How far a task is with a transaction. -/
inductive Phase where
  /- It has none. -/
  | apart
  /- It has begun one. -/
  | inside
  /- It only has to release it. -/
  | closing

/- What comes after an answer. -/
def Phase.after (phase : Phase) :
    (request : Request) → Except Error request.Answer → Phase
  | .begin, .ok _ => inside
  | .commit, _ => closing
  | .release, _ => apart
  | _, _ => phase

/- The statements of transactions. -/
def Statement.Alters (scene : Scene) : Statement → Prop
  | touchItem _ | removeItem _ | removeSlot _ _ => True
  | addSlot slot => scene.Fits slot
  | _ => False

namespace Request

/- What a task may ask for that removes no dictionary row. -/
def Allowed (scene : Scene) : Phase → Request → Prop
  | .apart, shared asked => asked.Spares
  | .apart, begin => True
  | .inside, held asked => asked.Alters scene
  | .inside, commit => True
  | .inside, release => True
  | .closing, release => True
  | _, _ => False

/- A statement that is answered was run. -/
def Tells (before after : Contents) :
    (request : Request) → Except Error request.Answer → Prop
  | shared asked, .ok answer =>
      ∃ clock, asked.run clock before = .ok (answer, after)
  | _, _ => True

/- An error tells nothing. -/
theorem tells_error
    (before after : Contents)
    (request : Request)
    (error : Error) :
    request.Tells before after (.error error) := by
  cases request <;> trivial

/- Who is apart is still apart when he is refused. -/
theorem Allowed.after_error
    {scene : Scene}
    {request : Request}
    (hAllowed : request.Allowed scene .apart)
    (error : Error) :
    Phase.apart.after request (.error error) = .apart := by
  cases request with
  | shared | begin => rfl
  | held | nest | commit | release => cases hAllowed

end Request

------------------------------------------------------------
-- Removing from dictionaries
------------------------------------------------------------

/- What a task removes: one table, or everything. -/
inductive Duty where
  | drop (tableId : Int)
  | wipe
deriving DecidableEq

namespace Duty

/- The statement that is made last. -/
def last : Duty → Statement
  | drop tableId => .removeTable tableId
  | wipe => .removeTables

/- The statements that belong to a duty. -/
def Allows : Duty → Statement → Prop
  | drop tableId, asked =>
      asked.Spares ∨ asked = .removeAttributesOf tableId ∨
        asked = .removeTable tableId
  | wipe, asked =>
      asked.Spares ∨ asked = .removeValues ∨
        asked = .removeAttributes ∨ asked = .removeTables

/- Is a table one of those to be removed? -/
def Dooms : Duty → Int → Prop
  | drop tableId, other => tableId = other
  | wipe, _ => True

end Duty

namespace Program

variable {α β : Type}

/- It only remains to clear the caches. -/
def Clears
    (program : Program α)
    (outcome : Except Error α) : Prop :=
  program = cached (fun _ => .empty) fun _ => done outcome

/-
  Statements of a duty follow each other.  When one of them
  fails, and after the last one, the caches are cleared.
-/
def Razes (duty : Duty) : Program α → Prop
  | ask request next =>
      ∃ asked, request = .shared asked ∧ duty.Allows asked ∧
        ∀ answer, (next answer).Razes duty ∨
          (∃ error, (next answer).Clears (.error error)) ∨
          asked = duty.last ∧ answer.isOk ∧
            ∃ outcome, (next answer).Clears outcome
  | _ => False

------------------------------------------------------------
-- Programs among others
------------------------------------------------------------

/-
  Whatever becomes of the scene before each request, and
  whatever is answered, a program asks for nothing that is
  not allowed, and its caches mirror what the scene covers.
  It may come to a duty if it is to raze.
-/
def Abides
    (raze : Prop)
    (post : Except Error α → Phase → Scene → Prop) :
    Program α → Phase → Scene → Prop
  | done outcome, phase, scene => post outcome phase scene
  | cached update next, phase, scene =>
      ∀ caches whole, scene.Covers whole →
        caches.Mirrors whole →
          (update caches).Mirrors whole ∧
            (next (update caches)).Abides raze post phase
              scene
  | ask request next, phase, scene =>
      (raze ∧ phase = .apart ∧
        ∃ duty, (ask request next).Razes duty) ∨
      ∀ now, scene.Becomes now →
        request.Allowed now phase ∧
          ∀ answer after, now.Becomes after →
            request.Tells now.contents after.contents
              answer →
              (next answer).Abides raze post
                (phase.after request answer) after

namespace Abides

variable {raze raze' : Prop} {phase : Phase} {scene : Scene}
variable {post post' : Except Error α → Phase → Scene → Prop}
variable {program : Program α}

theorem mono
    (hAbides : program.Abides raze post phase scene)
    (hRaze : raze → raze')
    (hPost : ∀ outcome phase scene,
      post outcome phase scene →
        post' outcome phase scene) :
    program.Abides raze' post' phase scene := by
  induction program generalizing phase scene with
  | done outcome => exact hPost _ _ _ hAbides
  | cached update next ih =>
      intro caches whole hCovers hMirrors
      rcases hAbides caches whole hCovers hMirrors with
        ⟨hKept, hNext⟩
      exact ⟨hKept, ih _ hNext⟩
  | ask request next ih =>
      rcases hAbides with ⟨hMay, hRest⟩ | hAsks
      · exact Or.inl ⟨hRaze hMay, hRest⟩
      · refine Or.inr fun now hNow => ?_
        rcases hAsks now hNow with ⟨hAllowed, hNext⟩
        exact ⟨hAllowed, fun answer after hAfter hTells =>
          ih _ (hNext answer after hAfter hTells)⟩

/- At the end the scene has become what it is then. -/
theorem remember
    {start : Scene}
    (hStart : start.Becomes scene)
    (hAbides : program.Abides raze post phase scene) :
    program.Abides raze
      (fun outcome phase later =>
        post outcome phase later ∧ start.Becomes later)
      phase scene := by
  induction program generalizing phase scene with
  | done outcome => exact ⟨hAbides, hStart⟩
  | cached update next ih =>
      intro caches whole hCovers hMirrors
      rcases hAbides caches whole hCovers hMirrors with
        ⟨hKept, hNext⟩
      exact ⟨hKept, ih _ hStart hNext⟩
  | ask request next ih =>
      rcases hAbides with hRazes | hAsks
      · exact Or.inl hRazes
      · refine Or.inr fun now hNow => ?_
        rcases hAsks now hNow with ⟨hAllowed, hNext⟩
        refine ⟨hAllowed, fun answer after hAfter hTells => ?_⟩
        exact ih _ ((hStart.trans hNow).trans hAfter)
          (hNext answer after hAfter hTells)

/- A task may be at a duty if it is to raze. -/
theorem of_razes
    {duty : Duty}
    (hRaze : raze)
    (hRazes : program.Razes duty) :
    program.Abides raze post .apart scene := by
  cases program with
  | ask request next => exact Or.inl ⟨hRaze, rfl, duty, hRazes⟩
  | done outcome => cases hRazes
  | cached update next => cases hRazes

/- The first part of a sequence comes to no duty. -/
theorem andThen
    {next : Except Error α → Program β}
    {last : Except Error β → Phase → Scene → Prop}
    (hFirst : program.Abides False post phase scene)
    (hNext : ∀ outcome phase later,
      post outcome phase later →
        (next outcome).Abides raze last phase later) :
    (program.andThen next).Abides raze last phase scene := by
  induction program generalizing phase scene with
  | done outcome => exact hNext _ _ _ hFirst
  | cached update go ih =>
      intro caches whole hCovers hMirrors
      rcases hFirst caches whole hCovers hMirrors with
        ⟨hKept, hLater⟩
      exact ⟨hKept, ih _ hLater⟩
  | ask request go ih =>
      rcases hFirst with ⟨hNever, -⟩ | hAsks
      · exact hNever.elim
      · refine Or.inr fun now hNow => ?_
        rcases hAsks now hNow with ⟨hAllowed, hLater⟩
        exact ⟨hAllowed, fun answer after hAfter hTells =>
          ih _ (hLater answer after hAfter hTells)⟩

/- What needs the store next can wait for it. -/
theorem wait
    {later : Scene}
    (hAbides : program.Abides raze post phase scene)
    (hSettled : program.IsSettled)
    (hBecomes : scene.Becomes later)
    (hPost : ∀ outcome, post outcome phase scene →
      post outcome phase later) :
    program.Abides raze post phase later := by
  cases program with
  | done outcome => exact hPost outcome hAbides
  | cached update next => cases hSettled
  | ask request next =>
      rcases hAbides with hRazes | hAsks
      · exact Or.inl hRazes
      · exact Or.inr fun now hNow =>
          hAsks now (hBecomes.trans hNow)

/- The caches are used at once. -/
theorem settle
    {whole : Contents}
    {caches : Caches}
    (hAbides : program.Abides raze post phase scene)
    (hCovers : scene.Covers whole)
    (hMirrors : caches.Mirrors whole) :
    (program.settle caches).1.Abides raze post phase scene ∧
      (program.settle caches).2.Mirrors whole := by
  induction program generalizing caches with
  | done outcome => exact ⟨hAbides, hMirrors⟩
  | ask request next => exact ⟨hAbides, hMirrors⟩
  | cached update next ih =>
      rcases hAbides caches whole hCovers hMirrors with
        ⟨hKept, hNext⟩
      exact ih _ hNext hKept

end Abides

------------------------------------------------------------
-- What programs learn
------------------------------------------------------------

/-
  A program without a transaction, or with a whole one, abides
  and knows something of what it gives.
-/
def Learns
    (raze : Prop)
    (found : α → Scene → Prop)
    (program : Program α)
    (scene : Scene) : Prop :=
  program.Abides raze
    (fun outcome phase later => phase = .apart ∧
      ∀ given, outcome = .ok given → found given later)
    .apart scene

variable {raze : Prop} {scene : Scene}
variable {found found' : α → Scene → Prop}

theorem Learns.mono
    {program : Program α}
    (hLearns : program.Learns False found scene)
    (hFound : ∀ given later, found given later →
      found' given later) :
    program.Learns raze found' scene :=
  Abides.mono hLearns False.elim
    fun _ _ _ ⟨hPhase, hGiven⟩ => ⟨hPhase,
      fun given hSame => hFound _ _ (hGiven given hSame)⟩

/- What was known before is known of a later scene. -/
theorem Learns.bind
    {mid : β → Scene → Prop}
    {program : Program β}
    {next : β → Program α}
    (hFirst : program.Learns False mid scene)
    (hNext : ∀ given later, scene.Becomes later →
      mid given later →
        (next given).Learns raze found later) :
    (program >>= next).Learns raze found scene := by
  apply (Abides.remember (.refl scene) hFirst).andThen
  rintro (error | given) phase later ⟨⟨rfl, hMid⟩, hBecomes⟩
  · exact ⟨rfl, fun _ hWrong => by cases hWrong⟩
  · exact hNext given later hBecomes (hMid given rfl)

theorem learns_error (error : Error) :
    (done (.error error) : Program α).Learns raze found
      scene :=
  ⟨rfl, fun _ hWrong => by cases hWrong⟩

theorem learns_pure
    {given : α}
    (hFound : found given scene) :
    (pure given : Program α).Learns raze found scene :=
  ⟨rfl, fun _ hSame => by
    cases hSame
    exact hFound⟩

/- A check needs nobody. -/
theorem learns_check_bind
    {check : Except Error β}
    {next : β → Program α}
    (hNext : ∀ given, check = .ok given →
      (next given).Learns raze found scene) :
    (done check >>= next).Learns raze found scene := by
  cases check with
  | ok given => exact hNext given rfl
  | error error => exact learns_error error

theorem learns_required_bind
    (what : String)
    {there : Option β}
    {next : β → Program α}
    (hNext : ∀ given, there = some given →
      (next given).Learns raze found scene) :
    (required what there >>= next).Learns raze found
      scene := by
  cases there with
  | none => exact learns_error _
  | some given => exact hNext given rfl

theorem Learns.map
    {mid : β → Scene → Prop}
    {program : Program β}
    {change : β → α}
    (hFirst : program.Learns False mid scene)
    (hFound : ∀ given later, mid given later →
      found (change given) later) :
    (change <$> program).Learns raze found scene :=
  hFirst.bind fun given later _ hMid =>
    learns_pure (hFound given later hMid)

/- A statement knows what it has just answered. -/
theorem learns_run
    (asked : Statement)
    (hSpares : asked.Spares)
    {found : asked.Answer → Scene → Prop}
    (hTells : ∀ (clock : Clock) (now after : Scene)
        (answer : asked.Answer),
      scene.Becomes now → now.Becomes after →
        asked.run clock now.contents =
            .ok (answer, after.contents) →
          found answer after) :
    (run asked).Learns raze found scene := by
  refine Or.inr fun now hNow => ⟨hSpares, ?_⟩
  rintro (error | answer) after hAfter hTold
  · exact learns_error error
  · rcases hTold with ⟨clock, hRun⟩
    exact learns_pure
      (hTells clock now after answer hNow hAfter hRun)

/- Nothing needs to be learned from a statement. -/
theorem learns_any
    (asked : Statement)
    (hSpares : asked.Spares) :
    (run asked).Learns raze (fun _ _ => True) scene :=
  learns_run asked hSpares fun _ _ _ _ _ _ _ => trivial

------------------------------------------------------------
-- Caches
------------------------------------------------------------

/- What is read from the caches the scene covers. -/
theorem learns_caches_bind
    {next : Caches → Program α}
    (hNext : ∀ caches whole, scene.Covers whole →
      caches.Mirrors whole →
        (next caches).Learns raze found scene) :
    (caches >>= next).Learns raze found scene :=
  fun caches whole hCovers hMirrors =>
    ⟨hMirrors, hNext caches whole hCovers hMirrors⟩

theorem learns_clearCaches_bind
    {next : Unit → Program α}
    (hNext : (next ()).Learns raze found scene) :
    (clearCaches >>= next).Learns raze found scene :=
  fun _ whole _ _ => ⟨.empty whole, hNext⟩

/- A table is kept, or the one of its name is. -/
theorem learns_keepTable
    {row : Table}
    (hRow : row ∈ scene.contents.tables.rows) :
    (keepTable row).Learns raze
      (fun given later => later.KnowsTable given.id)
      scene := by
  intro caches whole hCovers hMirrors
  have hKept : (caches.tables.keep row).2.Mirrors
      whole.tables.rows :=
    hMirrors.tables.keep (hCovers.retains.tables row hRow)
  refine ⟨{ hMirrors with tables := hKept }, learns_pure ?_⟩
  cases hGet : (caches.tables.keep row).2.get? row.name with
  | none => exact scene.formed.tables.bounded row hRow
  | some kept =>
      exact hCovers.tables kept (hKept.get?_eq_some hGet).1

theorem learns_keepAttribute
    {row : Attribute}
    (hRow : row ∈ scene.contents.attributes.rows) :
    (keepAttribute row).Learns raze
      (fun given later =>
        later.KnowsAttribute row.tableId given.id)
      scene := by
  intro caches whole hCovers hMirrors
  have hKept : (caches.attributes.keep row).2.Mirrors
      whole.attributes.rows :=
    hMirrors.attributes.keep
      (hCovers.retains.attributes row hRow)
  refine ⟨{ hMirrors with attributes := hKept },
    learns_pure ?_⟩
  cases hGet : (caches.attributes.keep row).2.get?
      (row.tableId, row.name) with
  | none => exact Or.inr ⟨row, hRow, rfl, rfl⟩
  | some kept =>
      rcases hKept.get?_eq_some hGet with ⟨hThere, hKey⟩
      have hTable : kept.tableId = row.tableId :=
        congrArg Prod.fst hKey
      exact hTable ▸ hCovers.knowsAttribute hThere

theorem learns_keepValue
    {content : Scalar}
    {id : Int}
    (hRow : ⟨id, content.normalized⟩ ∈
      scene.contents.values.rows) :
    (keepValue content id).Learns raze
      (fun _ later =>
        ∀ tableId, later.KnowsValue tableId id) scene := by
  intro caches whole hCovers hMirrors
  have hThere := hCovers.retains.values _ hRow
  exact ⟨{ hMirrors with
      values := hMirrors.values.keep hThere },
    learns_pure fun tableId => hCovers.knowsValue hThere _⟩

------------------------------------------------------------
-- Transactions
------------------------------------------------------------

/- A statement of a transaction, and what comes after it. -/
theorem abides_runHeld_bind
    {asked : Statement}
    {next : asked.Answer → Program α}
    (hAlters : ∀ now, scene.Becomes now → asked.Alters now)
    (hNext : ∀ answer later, scene.Becomes later →
      (next answer).Abides False
        (fun _ phase _ => phase = .inside) .inside later) :
    (runHeld asked >>= next).Abides False
      (fun _ phase _ => phase = .inside) .inside scene := by
  refine Or.inr fun now hNow => ⟨hAlters now hNow, ?_⟩
  rintro (error | answer) after hAfter -
  · rfl
  · exact hNext answer after (hNow.trans hAfter)

/- A transaction is released whatever happens. -/
theorem learns_transaction
    {body : Program α}
    (hBody : ∀ later, scene.Becomes later →
      body.Abides False
        (fun _ phase _ => phase = .inside) .inside later) :
    (transaction body).Learns raze (fun _ _ => True)
      scene := by
  have hRelease (outcome : Except Error α) (phase : Phase)
      (later : Scene)
      (hPhase : phase = .inside ∨ phase = .closing) :
      (request .release >>= fun _ =>
        done outcome).Abides raze
          (fun outcome phase later => phase = .apart ∧
            ∀ given, outcome = .ok given → True)
          phase later := by
    refine Or.inr fun now _ => ⟨?_, ?_⟩
    · rcases hPhase with rfl | rfl <;> trivial
    · rintro (error | _) after - -
      · exact ⟨rfl, fun _ _ => trivial⟩
      · exact ⟨rfl, fun _ _ => trivial⟩
  refine Or.inr fun now hNow => ⟨trivial, ?_⟩
  rintro (error | _) after hAfter -
  · exact learns_error error
  have hCommits :
      (attempt do
        let given ← body
        request .commit
        pure given).Abides False
          (fun outcome phase _ =>
            (phase = .inside ∨ phase = .closing) ∧
              ∃ given, outcome = .ok given)
          .inside after := by
    have hEnds :
        (body >>= fun given => request .commit >>= fun _ =>
          pure given).Abides False
            (fun _ phase _ =>
              phase = .inside ∨ phase = .closing)
            .inside after := by
      apply (hBody after (hNow.trans hAfter)).andThen
      rintro (error | given) phase later rfl
      · exact Or.inl rfl
      · refine Or.inr fun _ _ => ⟨trivial, ?_⟩
        rintro (error | _) _ - -
        · exact Or.inr rfl
        · exact Or.inr rfl
    exact hEnds.andThen fun outcome _ _ hPhase =>
      ⟨hPhase, outcome, rfl⟩
  apply hCommits.andThen
  rintro _ phase later ⟨hPhase, outcome, rfl⟩
  exact hRelease outcome phase later hPhase

end Program

------------------------------------------------------------
-- Attempts
------------------------------------------------------------

/- Each attempt knows the same of what it finds. -/
theorem Policy.learns_run
    {α : Type}
    {raze : Prop}
    {scene : Scene}
    {found : α → Scene → Prop}
    (policy : Policy)
    (label : String)
    {action : Program α}
    (hAction : ∀ later, scene.Becomes later →
      action.Learns False found later) :
    (policy.run label action).Learns raze found scene := by
  have hFrom (attempts further : Nat) {later : Scene}
      (hLater : scene.Becomes later) :
      (Policy.runFrom label attempts action
        further).Learns raze found later := by
    induction further generalizing later with
    | zero =>
        apply (hAction later hLater).andThen
        rintro (error | given) phase last ⟨rfl, hFound⟩
        · dsimp only
          split <;> exact Program.learns_error _
        · exact Program.learns_pure (hFound given rfl)
    | succ further ih =>
        apply (Program.Abides.remember hLater
          (hAction later hLater)).andThen
        rintro (error | given) phase last
          ⟨⟨rfl, hFound⟩, hBecomes⟩
        · dsimp only
          split
          · exact ih hBecomes
          · exact Program.learns_error _
        · exact Program.learns_pure (hFound given rfl)
  exact hFrom _ _ (.refl scene)

end SparseTables
