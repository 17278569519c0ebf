import SparseTables.Proofs.Session.Creating
import SparseTables.Proofs.Session.Effects

/-
  This file shows what it means to define an item while others
  do so as well, and nothing is removed.

  The rows for a request are found or created one by one, and
  others may change items in between.  What was found stands,
  so the changes of slots, which are made at once and alone,
  apply the request to what the item is like then.

  Main declarations:
    * `Session.Settles`
    * `Session.soundConcord`
    * `Session.definePledge`
    * `Session.obtains_changesOf`
    * `Session.settles_setSlots`
    * `Session.settles_define`
-/

namespace SparseTables

open Program

namespace Session

------------------------------------------------------------
-- What is promised
------------------------------------------------------------

/- The contents are sound; calls may fail without effect. -/
def soundConcord : Concord where
  such := Contents.Sound
  keyed := Contents.Sound.keyed
  trouble := .early
  early := nofun

/- Statements only add rows; a commit applies the request. -/
def definePledge (made : Option Define) : Pledge where
  adds := Contents.Extends
  commits before after := ∃ request,
    made = some request ∧
      Contents.Applies request before after
  stays := .refl
  adds_widens := Contents.Extends.widens
  commits_widens := fun ⟨_, _, hApplies⟩ => hApplies.widens

variable {request : Define} {seen : Contents}

/- A statement that adds rows to what stays sound. -/
theorem permits_define
    {asked : Statement}
    (hAdds : ∀ {clock before answer after},
      seen.Widens before → before.Sound →
        asked.run clock before = .ok (answer, after) →
          after.Sound ∧ before.Grows after) :
    Permits soundConcord (definePledge (some request)) seen
      asked := by
  intro clock before answer after hWidens hSound hRun
  rcases hAdds hWidens hSound hRun with ⟨hAfter, hGrows⟩
  exact ⟨hSound.extends_of_grows hAfter hGrows, hAfter⟩

theorem permits_addTable (name : String) (numeric : Bool) :
    Permits soundConcord (definePledge (some request)) seen
      (.addTable name numeric) := by
  refine permits_define fun _ hSound hRun => ?_
  exact (hSound.addTable hRun).imp_right And.left

theorem permits_addAttribute
    (tableId : Int)
    (name : String)
    (numeric : Bool) :
    Permits soundConcord (definePledge (some request)) seen
      (.addAttribute tableId name numeric) := by
  refine permits_define fun _ hSound hRun => ?_
  exact (hSound.addAttribute hRun).imp_right And.left

theorem permits_addValue
    {content : Scalar}
    (hStorable : content.isStorable) :
    Permits soundConcord (definePledge (some request)) seen
      (.addValue content) := by
  refine permits_define fun _ hSound hRun => ?_
  exact (hSound.addValue hStorable hRun).imp_right And.left

/- The key of a new item is of its table's kind. -/
theorem permits_addItem
    {table : Table}
    (hTable : table ∈ seen.tables.rows)
    {key : Value}
    (hKey : key ∈ seen.values.rows)
    (hKind : key.content.isNumeric = table.numeric) :
    Permits soundConcord (definePledge (some request)) seen
      (.addItem table.id key.id) := by
  refine permits_define fun hWidens hSound hRun => ?_
  exact (hSound.addItem
    (hWidens.retains.tables table hTable)
    (hWidens.retains.values key hKey) hKind
    hRun).imp_right And.left

------------------------------------------------------------
-- Programs that settle
------------------------------------------------------------

variable {α β : Type}

/- A program that gets what fits, unless it fails. -/
abbrev Obtains
    (request : Define)
    (good : α → Contents → Prop)
    (program : Program α)
    (seen : Contents) : Prop :=
  program.Leads soundConcord (definePledge (some request))
    (Gets soundConcord good) seen

namespace Obtains

variable {program : Program α} {good : α → Contents → Prop}

theorem done
    (hSound : seen.Sound)
    {given : α}
    (hGood : good given seen) :
    Obtains request good (.done (.ok given)) seen :=
  leads_done hSound hGood

theorem of_passes
    {check : Except Error Unit}
    (hLeads : program.Leads soundConcord
      (definePledge (some request))
      (Passes soundConcord check good) seen) :
    Obtains request good program seen := by
  refine hLeads.mono ?_
  rintro _ now - (⟨_, -, rfl⟩ | ⟨-, hGets⟩)
  · exact nofun
  · exact hGets

theorem bind
    (hObtains : Obtains request good program seen)
    {next : α → Program β}
    {last : β → Contents → Prop}
    (hNext : ∀ given now, seen.Widens now → now.Sound →
      good given now → Obtains request last (next given) now) :
    Obtains request last (program >>= next) seen :=
  hObtains.bind_gets hNext fun hMay _ _ => hMay

theorem check
    (hSound : seen.Sound)
    {check : Except Error Unit}
    {next : Unit → Program α}
    (hNext : check = .ok () →
      Obtains request good (next ()) seen) :
    Obtains request good (Program.done check >>= next) seen :=
  of_passes (leads_check_bind hSound hNext)

end Obtains

/- A program that settles a request. -/
def Settles
    (request : Define)
    (program : Program α)
    (seen : Contents) : Prop :=
  program.Amid soundConcord (definePledge (some request))
    Concluded (.apart false seen)

theorem settles_error (error : Error) :
    Settles request (done (.error error) : Program α) seen :=
  ⟨false, seen, rfl, by simp⟩

/- What is found is what one goes on with. -/
theorem Settles.bind
    {program : Program α}
    {next : α → Program β}
    {good : α → Contents → Prop}
    (hObtains : Obtains request good program seen)
    (hNext : ∀ given now, seen.Widens now → now.Sound →
      good given now → Settles request (next given) now) :
    Settles request (program >>= next) seen := by
  refine Amid.andThen hObtains ?_
  rintro (error | given) _ ⟨now, rfl, hWidens, hSound, hGood⟩
  · exact settles_error error
  · exact hNext given now hWidens hSound hGood

/- A check that fails settles it. -/
theorem Settles.check
    {check : Except Error Unit}
    {next : Unit → Program α}
    (hNext : check = .ok () →
      Settles request (next ()) seen) :
    Settles request (done check >>= next) seen := by
  cases check with
  | error error => exact settles_error error
  | ok => exact hNext rfl

/- What must be there is there. -/
theorem Settles.required
    {what : String}
    {given : α}
    {next : α → Program β}
    (hNext : Settles request (next given) seen) :
    Settles request
      (Program.required what (some given) >>= next) seen :=
  hNext

------------------------------------------------------------
-- Changes of slots
------------------------------------------------------------

section Changes

variable {policies : Policies} {tableId : Int}

/- An entry becomes a change that stands. -/
theorem obtains_changeOf
    (hRows : 2 ≤ policies.rows.attempts)
    (hValues : 2 ≤ policies.values.attempts)
    (hSound : seen.Sound)
    (hTable : (seen.table? tableId).isSome)
    {name : String}
    {content : Option Scalar}
    (hKnown : content = none →
      seen.Knows (.column tableId name)) :
    Obtains request
      (fun found now => ∃ change, found = some change ∧
        now.Stands tableId (name, content) change)
      (changeOf policies tableId name content) seen := by
  cases content with
  | none =>
      refine (Obtains.of_passes (Attributes.leads_lookup
        policies.rows hSound (hKnown rfl))).bind ?_
      rintro _ now - hSound ⟨row, hRow, rfl, rfl, rfl⟩
      exact Obtains.done hSound
        ⟨_, rfl, row, hRow, rfl, rfl, rfl, rfl⟩
  | some content =>
      refine Obtains.check hSound fun hCheck => ?_
      refine (Obtains.of_passes (Attributes.leads_resolve hRows
        hSound hTable
        (permits_addAttribute tableId name _))).bind ?_
      rintro _ now - hSound ⟨row, hRow, rfl, rfl, rfl⟩
      refine Obtains.check hSound fun hKind => ?_
      refine (Obtains.of_passes (Values.leads_resolve hValues
        hSound permits_addValue)).bind ?_
      rintro _ last hWidens hSound ⟨id, rfl, hValue⟩
      exact Obtains.done hSound ⟨_, rfl, row,
        hWidens.retains.attributes row hRow, rfl, rfl, rfl,
        checkKind_eq_ok hKind, _, hValue, rfl, rfl⟩

/- All entries become changes that stand. -/
theorem obtains_changesOf
    (hRows : 2 ≤ policies.rows.attempts)
    (hValues : 2 ≤ policies.values.attempts)
    (hSound : seen.Sound)
    (hTable : (seen.table? tableId).isSome)
    {entries : List (String × Option Scalar)}
    (hKnown : ∀ entry ∈ entries, entry.2 = none →
      seen.Knows (.column tableId entry.1)) :
    Obtains request
      (fun changes now =>
        List.Forall₂ (now.Stands tableId) entries changes)
      (changesOf policies tableId entries) seen := by
  induction entries generalizing seen with
  | nil =>
      exact Obtains.done hSound .nil
  | cons entry rest ih =>
      rcases entry with ⟨name, content⟩
      refine (obtains_changeOf hRows hValues hSound hTable
        (hKnown _ (.head _))).bind ?_
      rintro _ now hWidens hSound ⟨change, rfl, hStands⟩
      refine (ih hSound (hWidens.isSome_table? hTable)
        fun entry hEntry hErase => hWidens.knows
          (hKnown entry (.tail _ hEntry) hErase)).bind ?_
      intro changes last hMore hSound hRest
      exact Obtains.done hSound
        (.cons (hMore.stands hStands) hRest)

end Changes

------------------------------------------------------------
-- Defining
------------------------------------------------------------

/- Changes in a transaction are made one after another. -/
theorem amid_applyChanges
    {concord : Concord}
    {pledge : Pledge}
    {saved now : Contents}
    (itemId : Int)
    {changes : List SlotChange}
    (hCommits : pledge.commits saved
      (now.applyChanges itemId changes))
    (hSuch : concord.such
      (now.applyChanges itemId changes)) :
    (Items.applyChanges itemId changes).Amid concord pledge
      (Prepares concord pledge saved) (.inside saved now) := by
  induction changes generalizing now with
  | nil => exact ⟨now, rfl, fun _ _ => ⟨hCommits, hSuch⟩⟩
  | cons change rest ih =>
      rw [Contents.applyChanges, List.foldl_cons,
        Contents.applyChange] at hCommits hSuch
      refine amid_held_bind fun _ => ⟨_, _, rfl, ?_⟩
      cases hValue : change.valueId with
      | none =>
          rw [hValue] at hCommits hSuch
          exact ih hCommits hSuch
      | some valueId =>
          rw [hValue] at hCommits hSuch
          exact amid_held_bind fun _ =>
            ⟨_, _, rfl, ih hCommits hSuch⟩

/- They apply the request to the item as it is then. -/
theorem amid_touchAndApply
    {now : Contents}
    (hNow : now.Sound)
    {item : ItemRow}
    (hItem : now.itemIn? request.table request.key =
      some item)
    {changes : List SlotChange}
    (hStands : List.Forall₂ (now.Stands item.tableId)
      request.entries changes) :
    (do
      let touched ← runHeld (.touchItem item.id)
      if touched = 0 then
        throw (.notFound ("item " ++ toString item.id))
      Items.applyChanges item.id changes : Program Unit).Amid
        soundConcord (definePledge (some request))
        (Prepares soundConcord (definePledge (some request))
          now)
        (.inside now now) := by
  have hThere := (hNow.itemIn?_eq_some_iff.1 hItem).1
  have hPending :=
    (Contents.Pending.nil hNow hThere).stands hNow hStands
  refine amid_held_bind fun clock => ⟨_, _, rfl, ?_⟩
  change Amid _ _ _
    (if (now.touch item.id clock.cell).1 = 0 then _
      else Items.applyChanges item.id changes) _
  rw [if_neg (Contents.touch_count hThere _)]
  exact amid_applyChanges item.id
    ⟨_, rfl, hNow.applies hItem hStands clock.cell⟩
    (hPending.sound_touched hNow clock.cell)

/- Changes that stood some time ago still stand then. -/
theorem settles_setSlots
    (hSound : seen.Sound)
    {item : ItemRow}
    (hItem : seen.itemIn? request.table request.key =
      some item)
    {changes : List SlotChange}
    (hStands : List.Forall₂ (seen.Stands item.tableId)
      request.entries changes) :
    Settles request
      (Items.setSlots item.id changes >>= fun _ =>
        pure item.id) seen := by
  have hSettles : Settles request
      (Items.setSlots item.id changes) seen := by
    refine amid_transaction fun now hWidens hNow => ?_
    rcases hWidens.itemIn? hSound hNow hItem with
      ⟨later, hLater, hId, hTableId⟩
    rw [← hId]
    refine amid_touchAndApply hNow hLater ?_
    rw [hTableId]
    exact hStands.imp fun _ _ => hWidens.stands
  refine Amid.andThen hSettles ?_
  rintro (error | _) _ ⟨committed, now, rfl, hCommitted⟩
  · exact ⟨committed, now, rfl, by simpa using hCommitted⟩
  · exact ⟨committed, now, rfl, by simpa using hCommitted⟩

/- A request that is made with two attempts is settled. -/
theorem settles_define
    {policies : Policies}
    (hRows : 2 ≤ policies.rows.attempts)
    (hValues : 2 ≤ policies.values.attempts)
    (hFirstSound : seen.Sound)
    (hErases : ∀ entry ∈ request.entries, entry.2 = none →
      ∃ table ∈ seen.tables.rows,
        table.name = request.table ∧
          (seen.attributeNamed? table.id entry.1).isSome) :
    Settles request (define policies request) seen := by
  refine Settles.check fun _ => ?_
  refine Settles.bind (Obtains.of_passes
    (Tables.leads_resolve hRows hFirstSound
      (permits_addTable _ _))) ?_
  rintro _ first hFirst hSound ⟨table, hTable, rfl, hName⟩
  refine Settles.required (Settles.check fun hKind => ?_)
  refine Settles.bind (Obtains.of_passes
    (Values.leads_resolve hValues hSound
      permits_addValue)) ?_
  rintro _ second hSecond hSound ⟨keyId, rfl, hKey⟩
  have hTable := hSecond.retains.tables table hTable
  have hTableThere : (second.table? table.id).isSome := by
    rw [hSound.table?_eq_some_iff.2 ⟨hTable, rfl⟩]
    rfl
  have hKeyThere : (second.value? keyId).isSome := by
    rw [hSound.value?_eq_some_iff.2 ⟨hKey, rfl⟩]
    rfl
  refine Settles.required (Settles.bind
    (Items.leads_resolve hRows hTableThere hKeyThere
      (permits_addItem hTable hKey ?_)) ?_)
  · rw [Scalar.isNumeric_normalized]
    exact checkKind_eq_ok hKind
  rintro _ third hThird hSound
    ⟨item, hItem, rfl, hTableId, hKeyId⟩
  have hTable := hThird.retains.tables table hTable
  have hKey := hThird.retains.values _ hKey
  refine Settles.required (Settles.bind
    (obtains_changesOf hRows hValues hSound
      (hThird.isSome_table? hTableThere) ?_) ?_)
  · intro entry hEntry hErase
    rcases hErases entry hEntry hErase with
      ⟨row, hRow, hSame, hKnown⟩
    have hWidens := (hFirst.trans hSecond).trans hThird
    have hRow := hWidens.retains.tables row hRow
    cases List.inj_on_of_nodup_map hSound.tableNames hRow
      hTable (hSame.trans hName.symm)
    exact hWidens.knows (hFirstSound.keyed.knows_column_iff.2
      (Option.isSome_iff_exists.1 hKnown))
  intro changes last hLast hLastSound hStands
  have hIn : third.itemIn? request.table request.key =
      some item :=
    hSound.itemIn?_eq_some_iff.2
      ⟨hItem, ⟨table, hTable, hTableId.symm, hName⟩, _, hKey,
        hKeyId.symm, rfl⟩
  rcases hLast.itemIn? hSound hLastSound hIn with
    ⟨later, hLater, hId, hOf⟩
  rw [← hId]
  refine settles_setSlots hLastSound hLater ?_
  rwa [hOf, hTableId]

end Session

end SparseTables
