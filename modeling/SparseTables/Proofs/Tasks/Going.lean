import SparseTables.Proofs.Tasks.Calls
import SparseTables.Proofs.Tasks.Requests

/-
  This file shows what a step of a task does that goes on as
  it should.

  A task at no duty spares the dictionaries.  When it has
  settled it still goes on as it should, and the caches hold
  what they may.

  Main declarations:
    * `Going.Abides`
    * `Going.abides_settle`
    * `Went`
    * `Going.Abides.step`
-/

namespace SparseTables

namespace Session

/- A task goes on as it should, whatever the others do. -/
def Going.Abides
    (task : Going)
    (phase : Phase)
    (scene : Scene) : Prop :=
  ∀ later, scene.Becomes later →
    task.rest.Abides task.call.isRemoval
      (fun _ phase _ => phase = .apart) phase later

theorem Going.Abides.later
    {task : Going}
    {phase : Phase}
    {scene later : Scene}
    (hAbides : task.Abides phase scene)
    (hBecomes : scene.Becomes later) :
    task.Abides phase later :=
  fun last hLast => hAbides last (hBecomes.trans hLast)

/- A task that needs the store next can wait for it. -/
theorem Going.Abides.of_settled
    {task : Going}
    {phase : Phase}
    {scene : Scene}
    (hSettled : task.rest.IsSettled)
    (hAbides : task.rest.Abides task.call.isRemoval
      (fun _ phase _ => phase = .apart) phase scene) :
    task.Abides phase scene :=
  fun _ hBecomes =>
    Program.Abides.wait hAbides hSettled hBecomes fun _ h => h

/- A task settles, and can wait for the store then. -/
theorem Going.abides_settle
    {call : Call}
    {program : Program call.Answer}
    {phase : Phase}
    {scene : Scene}
    {whole : Contents}
    {caches : Caches}
    (hProgram : program.Abides call.isRemoval
      (fun _ phase _ => phase = .apart) phase scene)
    (hCovers : scene.Covers whole)
    (hMirrors : caches.Mirrors whole) :
    Going.Abides ⟨call, (program.settle caches).1⟩ phase
        scene ∧
      (program.settle caches).2.Mirrors whole := by
  rcases hProgram.settle hCovers hMirrors with
    ⟨hSettled, hKept⟩
  exact ⟨.of_settled (program.isSettled_settle caches)
    hSettled, hKept⟩

/-
  What a step of a task makes of the store, and of the task
  and the caches when it has settled in a later scene.  If
  the store is held for another task, nothing happens to it.
-/
structure Went
    (phase next : Phase)
    (scene : Scene)
    {call : Call}
    (later : Program call.Answer)
    (shared after : Shared) : Prop where
  agrees : phase.Agrees shared.store.engine →
    next.Agrees after.store.engine
  waits : phase = .apart ∧ shared.store.engine.hold ≠ none →
    next = .apart ∧ after.store.engine = shared.store.engine
  spares : shared.store.engine.committed.Spares
    after.store.engine.committed
  fits : after.store.engine.Fits scene
  settles : ∀ {last : Scene} {whole : Contents},
    scene.Becomes last →
    last.contents = after.store.engine.committed →
    last.Covers whole → shared.caches.Mirrors whole →
      Going.Abides ⟨call, (later.settle after.caches).1⟩
          next last ∧
        (later.settle after.caches).2.Mirrors whole

section Step

variable {call : Call} {phase : Phase} {scene : Scene}
variable {shared after : Shared}

/- The caches are used. -/
theorem Going.Abides.step_cached
    {update : Caches → Caches}
    {go : Caches → Program call.Answer}
    (hAbides : Going.Abides ⟨call, .cached update go⟩ phase
      scene)
    (hScene :
      scene.contents = shared.store.engine.committed)
    (hFits : shared.store.engine.Fits scene) :
    Went phase phase scene (go (update shared.caches))
      shared
      { shared with caches := update shared.caches } where
  agrees := id
  waits hWaits := ⟨hWaits.1, rfl⟩
  spares := .refl (hScene ▸ scene.formed)
  fits := hFits
  settles hBecomes _ hCovers hMirrors := by
    -- The use of the caches is the first step to settle.
    have hEnd := Going.abides_settle (hAbides _ hBecomes)
      hCovers hMirrors
    exact hEnd

section Ask

variable {request : Request}
variable {go : Except Error request.Answer →
  Program call.Answer}
variable {answer : Except Error request.Answer}

/- Slots are added only where they are allowed. -/
theorem fits_of_allowed
    (hAllowed : request.Allowed scene phase)
    (hFits : shared.store.engine.Fits scene)
    (hMet : shared.store.engine.Met shared.store.clock
      request answer after.store.engine) :
    after.store.engine.Fits scene := by
  refine hMet.fits hFits fun slot hAdds => ?_
  rcases hAdds with rfl | rfl
  · cases phase <;> cases hAllowed
  · cases phase with
    | inside => exact hAllowed
    | apart | closing => cases hAllowed

/- A task asks the store that may use it. -/
theorem went_of_agrees
    (hAllowed : request.Allowed scene phase)
    (hNext : ∀ last, scene.Becomes last →
      request.Tells scene.contents last.contents answer →
        (go answer).Abides call.isRemoval
          (fun _ phase _ => phase = .apart)
          (phase.after request answer) last)
    (hScene :
      scene.contents = shared.store.engine.committed)
    (hFits : shared.store.engine.Fits scene)
    (hAgrees : phase.Agrees shared.store.engine)
    (hCaches : after.caches = shared.caches)
    (hMet : shared.store.engine.Met shared.store.clock
      request answer after.store.engine) :
    Went phase (phase.after request answer) scene (go answer)
      shared after := by
  rcases hMet.agrees hAgrees hScene hAllowed with
    ⟨hAfter, hSpares, hTells⟩
  refine ⟨fun _ => hAfter, ?_, hSpares,
    fits_of_allowed hAllowed hFits hMet, ?_⟩
  · rintro ⟨rfl, hHeld⟩
    exact absurd hAgrees hHeld
  · intro last whole hBecomes hLast hCovers hMirrors
    rw [← hScene, ← hLast] at hTells
    exact Going.abides_settle (hNext last hBecomes hTells)
      hCovers (hCaches ▸ hMirrors)

/- A task asks the store that is held for another one. -/
theorem went_of_held
    (hAllowed : request.Allowed scene .apart)
    (hNext : ∀ last, scene.Becomes last →
      request.Tells scene.contents last.contents answer →
        (go answer).Abides call.isRemoval
          (fun _ phase _ => phase = .apart)
          (Phase.apart.after request answer) last)
    (hScene :
      scene.contents = shared.store.engine.committed)
    (hFits : shared.store.engine.Fits scene)
    (hHeld : shared.store.engine.hold ≠ none)
    (hCaches : after.caches = shared.caches)
    (hMet : shared.store.engine.Met shared.store.clock
      request answer after.store.engine) :
    Went .apart .apart scene (go answer) shared after := by
  rcases hMet.refused_of_held hHeld (Or.inl hAllowed) with
    ⟨hUnmoved, error, rfl⟩
  rw [hAllowed.after_error error] at hNext
  refine ⟨fun hFree => absurd hFree hHeld,
    fun _ => ⟨rfl, hUnmoved⟩, ?_,
    fits_of_allowed hAllowed hFits hMet, ?_⟩
  · rw [hUnmoved]
    exact .refl (hScene ▸ scene.formed)
  · intro last whole hBecomes _ hCovers hMirrors
    exact Going.abides_settle
      (hNext last hBecomes (Request.tells_error _ _ _ _))
      hCovers (hCaches ▸ hMirrors)

end Ask

/-
  A step of a task that is at no duty spares the
  dictionaries.
-/
theorem Going.Abides.step
    {rest later : Program call.Answer}
    (hAbides : Going.Abides ⟨call, rest⟩ phase scene)
    (hNone : ¬(call.isRemoval ∧ ∃ duty, rest.Razes duty))
    (hScene :
      scene.contents = shared.store.engine.committed)
    (hFits : shared.store.engine.Fits scene)
    (hPhase : phase.Agrees shared.store.engine ∨
      phase = .apart ∧ shared.store.engine.hold ≠ none)
    (hStep : rest.step? shared = some (later, after)) :
    ∃ next, Went phase next scene later shared after := by
  cases rest with
  | done outcome => simp [Program.step?] at hStep
  | cached update go =>
      cases hStep
      exact ⟨phase, hAbides.step_cached hScene hFits⟩
  | ask request go =>
      rcases Program.met_of_step hStep with
        ⟨answer, rfl, hCaches, hMet⟩
      rcases hAbides scene (.refl scene) with
        ⟨hRaze, -, hDuty⟩ | hAsks
      · exact absurd ⟨hRaze, hDuty⟩ hNone
      rcases hAsks scene (.refl scene) with
        ⟨hAllowed, hNext⟩
      rcases hPhase with hAgrees | ⟨rfl, hHeld⟩
      · exact ⟨_, went_of_agrees hAllowed (hNext answer)
          hScene hFits hAgrees hCaches hMet⟩
      · exact ⟨_, went_of_held hAllowed (hNext answer)
          hScene hFits hHeld hCaches hMet⟩

end Step

/- A task that takes a step has not failed. -/
theorem Going.error?_of_step
    {call : Call}
    {rest later : Program call.Answer}
    {shared after : Shared}
    (hStep : rest.step? shared = some (later, after)) :
    Going.error? ⟨call, rest⟩ = none := by
  cases rest with
  | done outcome => simp [Program.step?] at hStep
  | ask request go => rfl
  | cached update go => rfl

end Session

end SparseTables
