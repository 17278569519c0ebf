import SparseTables.Proofs.Session.Answering
import SparseTables.Proofs.Session.Outcomes

/-
  This file defines everything that a session can be asked to
  do: its calls, and the calls on its dictionaries and items
  that other calls are made of.  Whatever it is, it comes to
  an end, and leaves caches that mirror the contents.

  Only the statements that remove whole rows of dictionaries
  are not errands of their own.

  Main declarations:
    * `Session.Errand`
    * `Session.Errand.May`
    * `Session.Errand.tends`
    * `Session.Happening`
    * `Session.happen`
    * `Session.Tidy`
    * `Session.Tidy.happen`
    * `Session.Tidy.ages_happen`
-/

namespace SparseTables

------------------------------------------------------------
-- Programs that keep caches
------------------------------------------------------------

namespace Program

variable {α : Type} {may may' : Statement → Prop}

/-
  A program that is bound to some statements, and keeps the
  caches a mirror of the contents.
-/
structure Tends
    (may : Statement → Prop)
    (program : Program α) : Prop where
  bound : program.BoundTo may
  ends : ∀ clock contents caches,
    contents.Keyed → caches.Mirrors contents →
      ∃ outcome after kept,
        program.Ends clock (.ofContents contents) caches
          outcome (.ofContents after) kept ∧
        kept.Mirrors after

/- A program that agrees with another keeps its caches. -/
theorem Agrees.tends
    {alike : α → α → Prop}
    {left right : Program α}
    (hAgrees : left.Agrees may alike right) :
    left.Tends may where
  bound := hAgrees.bound
  ends clock contents caches hKeyed hMirrors := by
    rcases hAgrees.ends clock contents caches caches hKeyed
      hMirrors hMirrors with
      ⟨outcome, -, after, kept, -, hEnds, -, -, hKept, -⟩
    exact ⟨outcome, after, kept, hEnds, hKept⟩

end Program

open Program

namespace Session

------------------------------------------------------------
-- Errands
------------------------------------------------------------

/- What a session can be asked to do. -/
inductive Errand where
  | call (made : Call)
  -- dictionaries
  | resolveTable
      (name : String)
      (intent : Intent)
      (numeric : Bool)
  | resolveAttribute
      (tableId : Int)
      (name : String)
      (intent : Intent)
      (numeric : Bool)
  | resolveValue (content : Scalar) (intent : Intent)
  | tableById (id : Int)
  | attributeById (id : Int)
  | valueById (id : Int)
  | tableNames
  | attributeNames (tableId : Int)
  -- items
  | resolveItem (tableId valueId : Int) (intent : Intent)
  | slots (itemId : Int)
  | setSlots (itemId : Int) (changes : List SlotChange)
  | removeItems (ids : List Int)
  | purgeItems (tableId : Int)
  | resetItems

namespace Errand

/- What an errand gives. -/
abbrev Answer : Errand → Type
  | call made => made.Answer
  | resolveTable _ _ _ | tableById _ => Option Table
  | resolveAttribute _ _ _ _ => Option Attribute
  | attributeById _ => Option Attribute
  | resolveValue _ _ | resolveItem _ _ _ => Option Int
  | valueById _ => Option Scalar
  | tableNames | attributeNames _ => List String
  | slots _ => List Slot
  | setSlots _ _ | purgeItems _ | resetItems => Unit
  | removeItems _ => Nat

/- The program of an errand. -/
def program (policies : Policies) :
    (errand : Errand) → Program errand.Answer
  | call made => made.program policies
  | resolveTable name intent numeric =>
      Tables.resolve policies.rows name intent numeric
  | resolveAttribute tableId name intent numeric =>
      Attributes.resolve policies.rows tableId name intent
        numeric
  | resolveValue content intent =>
      Values.resolve policies.values content intent
  | tableById id => Tables.byId id
  | attributeById id => Attributes.byId id
  | valueById id => Values.byId id
  | tableNames => Tables.names
  | attributeNames tableId => Attributes.names tableId
  | resolveItem tableId valueId intent =>
      Items.resolve policies.rows tableId valueId intent
  | slots itemId => Items.slots itemId
  | setSlots itemId changes => Items.setSlots itemId changes
  | removeItems ids => Items.remove ids
  | purgeItems tableId => Items.purge tableId
  | resetItems => Items.reset

/- The statements that an errand may make. -/
def May : Errand → Statement → Prop
  | call made => made.May
  | _ => Statement.Leaves

/- Does an errand empty the dictionaries? -/
def IsFullReset : Errand → Prop
  | call (.reset dictionaries) => dictionaries = true
  | _ => False

/- All others make no statement that empties one. -/
theorem May.drops
    {errand : Errand}
    (hPartial : ¬errand.IsFullReset)
    {asked : Statement}
    (hMay : errand.May asked) :
    asked.Drops := by
  cases errand with
  | call made =>
      cases made with
      | dropTable => exact hMay
      | reset dictionaries =>
          cases dictionaries with
          | true => exact absurd rfl hPartial
          | false => exact Statement.Leaves.drops hMay
      | _ => exact Statement.Leaves.drops hMay
  | _ => exact Statement.Leaves.drops hMay

/- Every errand keeps the caches a mirror. -/
theorem tends
    (policies : Policies)
    (errand : Errand) :
    (errand.program policies).Tends errand.May := by
  cases errand with
  | call made => exact (made.agrees policies).tends
  | resolveTable name intent numeric =>
      exact (Tables.sure_resolve _ name intent numeric).tends
  | resolveAttribute tableId name intent numeric =>
      exact (Attributes.sure_resolve _ tableId name intent
        numeric).tends
  | resolveValue content intent =>
      exact (Values.sure_resolve _ content intent).tends
  | tableById id => exact (Tables.sure_byId id).tends
  | attributeById id => exact (Attributes.sure_byId id).tends
  | valueById id => exact (Values.agrees_byId id).tends
  | tableNames =>
      exact (Sure.run .tableNames trivial trivial).tends
  | attributeNames tableId =>
      exact (Sure.run (.attributeNames tableId) trivial
        trivial).tends
  | resolveItem tableId valueId intent =>
      exact (Items.sure_resolve _ tableId valueId
        intent).tends
  | slots itemId =>
      exact (Sure.run (.slotsOf itemId) trivial trivial).tends
  | setSlots itemId changes =>
      exact (Items.sure_setSlots itemId changes).tends
  | removeItems ids => exact (Items.sure_remove ids).tends
  | purgeItems tableId =>
      exact (Items.sure_purge tableId).tends
  | resetItems => exact Items.sure_reset.tends

end Errand

------------------------------------------------------------
-- What happens
------------------------------------------------------------

/- What can happen to a store that does not fail. -/
inductive Happening where
  | errand (policies : Policies) (given : Errand)
  /- The caches are cleared, or a new session takes over. -/
  | renew
  | setClock (clock : Clock)

namespace Happening

/- What is left when something has happened. -/
def take (shared : Shared) : Happening → Shared
  | errand policies given =>
      ((given.program policies).advance shared).2
  | renew => { shared with caches := .empty }
  | setClock clock => withClock shared clock

/- Are the dictionaries emptied? -/
def IsFullReset : Happening → Prop
  | errand _ given => given.IsFullReset
  | _ => False

end Happening

/- One thing happens after another. -/
def happen
    (shared : Shared)
    (happenings : List Happening) : Shared :=
  happenings.foldl Happening.take shared

/-
  Nothing is going on in a store that does not fail, its
  contents are keyed, and the caches mirror them.
-/
structure Tidy (shared : Shared) : Prop where
  free : shared.store.engine.hold = none
  calm : shared.store.faults.Within .none
  keyed : shared.store.engine.contents.Keyed
  mirrors :
    shared.caches.Mirrors shared.store.engine.contents

/- What can be reached is tidy, while it does not fail. -/
theorem Reachable.tidy
    {shared : Shared}
    (hReachable : Reachable shared) :
    Tidy (calm shared) where
  free := hReachable.atRest.free
  calm := by
    simp [Session.calm, withFaults, Faults.none,
      Faults.Within]
  keyed := hReachable.atRest.sound.keyed
  mirrors := hReachable.atRest.mirrors

namespace Tidy

variable {shared : Shared}

/- A program ends as it does on the contents. -/
theorem advance
    (hTidy : Tidy shared)
    {α : Type}
    {program : Program α}
    {outcome : Except Error α}
    {after : Contents}
    {kept : Caches}
    (hEnds : program.Ends shared.store.clock
      (.ofContents shared.store.engine.contents)
      shared.caches outcome (.ofContents after) kept)
    (hKeyed : after.Keyed)
    (hMirrors : kept.Mirrors after) :
    ∃ last, program.advance shared =
        (.finished outcome, last) ∧
      last.store.engine.contents = after ∧ Tidy last := by
  rcases shared with
    ⟨⟨⟨contents, hold⟩, clock, faults⟩, caches⟩
  have hFree : hold = none := hTidy.free
  subst hFree
  rcases hEnds faults hTidy.calm with
    ⟨later, hLater, hAdvance⟩
  exact ⟨_, hAdvance, rfl, rfl, hLater, hKeyed, hMirrors⟩

/-
  An errand leaves the store tidy, and keeps of the contents
  what all of its statements keep.
-/
theorem errand
    (hTidy : Tidy shared)
    (policies : Policies)
    (given : Errand) :
    Tidy ((given.program policies).advance shared).2 ∧
      ∀ such : Contents → Prop,
        (∀ asked, given.May asked → asked.Keeps such) →
        such shared.store.engine.contents →
        such ((given.program policies).advance
          shared).2.store.engine.contents := by
  have hTends := given.tends policies
  rcases hTends.ends shared.store.clock _ _ hTidy.keyed
    hTidy.mirrors with
    ⟨outcome, after, kept, hEnds, hKept⟩
  have hKeyed := hTends.bound.keeps
    (fun asked _ => asked.keeps_keyed) hEnds hTidy.keyed
  rcases hTidy.advance hEnds hKeyed hKept with
    ⟨last, hLast, rfl, hAfter⟩
  rw [hLast]
  exact ⟨hAfter, fun such hKeeps hSuch =>
    hTends.bound.keeps hKeeps hEnds hSuch⟩

/- Whatever happens, the store stays tidy. -/
theorem take
    (hTidy : Tidy shared)
    (happening : Happening) :
    Tidy (happening.take shared) ∧
      (¬happening.IsFullReset →
        ∀ row ∈ shared.store.engine.contents.values.rows,
          row ∈ (happening.take
            shared).store.engine.contents.values.rows) := by
  cases happening with
  | errand policies given =>
      rcases hTidy.errand policies given with
        ⟨hAfter, hKeeps⟩
      refine ⟨hAfter, fun hPartial row => ?_⟩
      exact hKeeps (fun contents => row ∈ contents.values.rows)
        fun _ hMay => (hMay.drops hPartial).keeps_value
  | renew =>
      exact ⟨{ hTidy with mirrors := .empty _ },
        fun _ _ hRow => hRow⟩
  | setClock clock =>
      exact ⟨{ hTidy with }, fun _ _ hRow => hRow⟩

/- Not even a full reset gives out an identity again. -/
theorem ages_take
    (hTidy : Tidy shared)
    (happening : Happening) :
    shared.store.engine.contents.Ages
      (happening.take shared).store.engine.contents := by
  cases happening with
  | errand policies given =>
      exact (hTidy.errand policies given).2 _
        (fun asked _ => asked.keeps_ages _) (.refl _)
  | renew | setClock => exact .refl _

theorem happen
    (hTidy : Tidy shared)
    (happenings : List Happening) :
    Tidy (happen shared happenings) ∧
      ((∀ happening ∈ happenings, ¬happening.IsFullReset) →
        ∀ row ∈ shared.store.engine.contents.values.rows,
          row ∈ (Session.happen shared
            happenings).store.engine.contents.values.rows) := by
  induction happenings generalizing shared with
  | nil => exact ⟨hTidy, fun _ _ hRow => hRow⟩
  | cons happening rest ih =>
      rcases hTidy.take happening with ⟨hNext, hKept⟩
      rcases ih hNext with ⟨hLast, hMore⟩
      refine ⟨hLast, fun hPartial row hRow => ?_⟩
      exact hMore
        (fun later hLater => hPartial later (.tail _ hLater))
        row (hKept (hPartial happening (.head _)) row hRow)

theorem ages_happen
    (hTidy : Tidy shared)
    (happenings : List Happening) :
    shared.store.engine.contents.Ages
      (Session.happen shared
        happenings).store.engine.contents := by
  induction happenings generalizing shared with
  | nil => exact .refl _
  | cons happening rest ih =>
      exact (hTidy.ages_take happening).trans
        (ih (hTidy.take happening).1)

end Tidy

end Session

end SparseTables
