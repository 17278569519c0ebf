import SparseTables.Proofs.Session.Items
import SparseTables.Session.Read

/-
  This file shows what the calls that read items give: what
  the contents say, up to the sign of zero.

  Main declarations:
    * `Session.ensures_itemUnder`
    * `Session.ensures_itemsUnder`
    * `Session.ensures_metadataOf`
    * `Contents.respond`
    * `Session.ensures_get`
-/

namespace SparseTables

/- The positive zero stands for both zeros. -/
def GetResponse.normalized (response : GetResponse) :
    GetResponse :=
  ⟨response.items.map (Option.map NameMap.normalized)⟩

namespace Contents

/- The item under a key, if a key can be that. -/
def lookUp
    (contents : Contents)
    (tableId : Int)
    (key : Scalar) : Except Error (Option ItemRow) :=
  (Check.storable key).map fun _ =>
    contents.itemUnder? tableId key

/- The attributes of the items under some keys. -/
def respondEach
    (contents : Contents)
    (tableId : Int)
    (keys : List Scalar) :
    Except Error (List (Option Metadata)) :=
  keys.mapM fun key =>
    (contents.lookUp tableId key).map
      (Option.map fun item => contents.metadata item.id)

/- The answer to a request. -/
def respond
    (contents : Contents)
    (request : GetRequest) : Except Error GetResponse := do
  Check.dictionary "Table" request.table
  match contents.tableNamed? request.table with
  | none => .error (.notFound ("table " ++ request.table))
  | some table =>
      (contents.respondEach table.id request.keys).map
        GetResponse.mk

end Contents

namespace Session

variable {setup : Setup}
variable {contents : Contents} {caches : Caches}

------------------------------------------------------------
-- Keys
------------------------------------------------------------

/- The item under a key is found. -/
theorem ensures_itemUnder
    (hFree : setup.saved = none)
    (hSound : contents.Sound)
    (hMirrors : caches.Mirrors contents)
    (policies : Policies)
    (table : Table)
    (key : Scalar) :
    (itemUnder policies table key).Ensures setup contents
      caches
      (Program.Reads setup contents fun outcome =>
        outcome = (contents.lookUp table.id key).map
          (Option.map ItemRow.id)) := by
  have hFirst := (Values.ensures_resolve hFree hSound
    hMirrors policies.values key .lookup).mono
      fun _ _ _ _ _ hFinds => hFinds.reads
  apply hFirst.reads_bind
  · intro found caches hSound hMirrors hFound
    cases hCheck : Check.storable key with
    | error error => simp [hCheck, Except.map] at hFound
    | ok _ =>
        simp only [hCheck, Except.map, Except.ok.injEq]
          at hFound
        subst hFound
        cases hValue : contents.valueOf? key with
        | none =>
            exact Program.ensures_reads_pure hSound hMirrors
              (by simp [Contents.lookUp, Contents.itemUnder?,
                hCheck, hValue, Except.map])
        | some value =>
            apply (Items.ensures_resolve hFree hSound
              hMirrors policies.rows (by simp)).mono
            intro outcome after caches _ _ hFinds
            simpa [Contents.lookUp, Contents.itemUnder?,
              hCheck, hValue, Except.map] using hFinds.reads
  · intro error hError
    cases hCheck : Check.storable key with
    | ok _ => simp [hCheck, Except.map] at hError
    | error _ =>
        simpa [Contents.lookUp, hCheck, Except.map]
          using hError

/- The items under some keys are found, one after another. -/
theorem ensures_itemsUnder
    (hFree : setup.saved = none)
    (hSound : contents.Sound)
    (hMirrors : caches.Mirrors contents)
    (policies : Policies)
    (table : Table)
    (keys : List Scalar) :
    (itemsUnder policies table keys).Ensures setup contents
      caches
      (Program.Reads setup contents fun outcome =>
        outcome =
          (keys.mapM (contents.lookUp table.id)).map
            fun found => found.reduceOption.map
              ItemRow.id) := by
  induction keys generalizing caches with
  | nil => exact Program.ensures_reads_pure hSound hMirrors rfl
  | cons key rest ih =>
      rw [List.mapM_cons]
      refine Program.ensures_reads_both
        (fun first more => first.toList ++ more)
        (ensures_itemUnder hFree hSound hMirrors policies
          table key) (fun caches hMirrors => ih hMirrors)
        ?_ ?_ ?_
      all_goals
        cases contents.lookUp table.id key <;>
          cases rest.mapM (contents.lookUp table.id) <;>
          simp [Except.map, bind, Except.bind, pure,
            Except.pure]
      rename_i row rows
      cases row <;> rfl

------------------------------------------------------------
-- Attributes
------------------------------------------------------------

/- The attributes of slots are added one after another. -/
theorem ensures_addSlots
    (hFree : setup.saved = none)
    (hSound : contents.Sound)
    (hMirrors : caches.Mirrors contents)
    {slots : List Slot}
    (hSlots : ∀ slot ∈ slots, slot ∈ contents.slots)
    (metadata : Metadata) :
    (addSlots metadata slots).Ensures setup contents caches
      (Program.Reads setup contents fun outcome =>
        ∃ found, outcome = .ok found ∧ found.normalized =
          (slots.filterMap contents.named?).foldl
            (fun map entry => map.insert entry.1 entry.2)
            metadata.normalized) := by
  induction slots generalizing metadata caches with
  | nil =>
      exact Program.ensures_reads_pure hSound hMirrors
        ⟨metadata, rfl, rfl⟩
  | cons slot rest ih =>
      rcases hSound.slotsFit slot (hSlots slot
        List.mem_cons_self) with
        ⟨attr_, hAttr, value, hValue, hAttrId, hValueId, -⟩
      have hFindAttr :=
        hSound.attribute?_eq_some_iff.2 ⟨hAttr, hAttrId⟩
      have hFindValue :=
        hSound.value?_eq_some_iff.2 ⟨hValue, hValueId⟩
      have hEntry : contents.named? slot =
          some (attr_.name, value.content) := by
        simp [Contents.named?, hFindAttr, hFindValue]
      rw [List.filterMap_cons_some hEntry, List.foldl_cons]
      refine (Attributes.ensures_byId hFree hSound hMirrors
        slot.attributeId).reads_bind ?_ (by simp)
      intro row caches _ hMirrors hRow
      rw [Except.ok.injEq, hFindAttr] at hRow
      subst hRow
      refine (Values.ensures_byId hFree hSound hMirrors
        slot.valueId).reads_bind ?_ (by simp)
      intro content caches _ hMirrors hEnd
      rcases hEnd with ⟨_, ⟨rfl⟩, hContent⟩
      rw [hFindValue, Option.map_some,
        Option.map_eq_some_iff] at hContent
      rcases hContent with ⟨content, rfl, hContent⟩
      have hRest := ih hMirrors
        (fun slot hSlot => hSlots slot
          (List.mem_cons_of_mem _ hSlot))
        (metadata.insert attr_.name content)
      rw [NameMap.normalized, NameMap.map_insert, hContent]
        at hRest
      exact hRest

/- The attributes of an item are those of its slots. -/
theorem ensures_metadataOf
    (hFree : setup.saved = none)
    (hSound : contents.Sound)
    (hMirrors : caches.Mirrors contents)
    (itemId : Int) :
    (metadataOf itemId).Ensures setup contents caches
      (Program.Reads setup contents fun outcome =>
        outcome.map NameMap.normalized =
          .ok (contents.metadata itemId)) := by
  refine Program.ensures_read_bind hFree hSound rfl ?_
    fun hTrouble error =>
      Program.reads_refused hMirrors hTrouble error
  refine (ensures_addSlots hFree hSound hMirrors
    (fun slot hSlot =>
      (Contents.mem_slotsOf_iff.1 hSlot).1) .empty).mono ?_
  intro outcome after caches _ _ hEnd
  rcases hEnd with
    ⟨rfl, hMirrors, ⟨found, rfl, hFound⟩ | hRefused⟩
  · exact ⟨rfl, hMirrors, Or.inl (congrArg Except.ok hFound)⟩
  · exact ⟨rfl, hMirrors, Or.inr hRefused⟩

theorem ensures_some_metadataOf
    (hFree : setup.saved = none)
    (hSound : contents.Sound)
    (hMirrors : caches.Mirrors contents)
    (itemId : Int) :
    (some <$> metadataOf itemId).Ensures setup contents
      caches (Program.Reads setup contents fun outcome =>
        outcome.map (Option.map NameMap.normalized) =
          .ok (some (contents.metadata itemId))) := by
  refine Program.Ensures.map some
    ((ensures_metadataOf hFree hSound hMirrors itemId).mono
      ?_)
  intro outcome after caches _ _ hEnd
  rcases hEnd with
    ⟨rfl, hMirrors, hRight | ⟨hTrouble, error, rfl⟩⟩
  · refine ⟨rfl, hMirrors, Or.inl ?_⟩
    cases outcome with
    | error error => cases hRight
    | ok metadata =>
        exact congrArg (fun found => Except.ok (some found))
          (Except.ok.inj hRight)
  · exact Program.reads_refused hMirrors hTrouble error

/- One answer before those that follow. -/
theorem ensures_getMore
    {first : Program (Option Metadata)}
    {later : Program (List (Option Metadata))}
    {found : Option Metadata}
    {right : Except Error (List (Option Metadata))}
    (hFirst : first.Ensures setup contents caches
      (Program.Reads setup contents fun outcome =>
        outcome.map (Option.map NameMap.normalized) =
          .ok found))
    (hLater : ∀ caches, caches.Mirrors contents →
      later.Ensures setup contents caches
        (Program.Reads setup contents fun outcome =>
          outcome.map
              (List.map (Option.map NameMap.normalized)) =
            right)) :
    (do
      let first ← first
      let more ← later
      pure (first :: more) :
      Program (List (Option Metadata))).Ensures setup
        contents caches
        (Program.Reads setup contents fun outcome =>
          outcome.map
              (List.map (Option.map NameMap.normalized)) =
            right.map (found :: ·)) := by
  apply Program.ensures_reads_both _ hFirst hLater
  · intro first more hFirst hSame
    subst hSame
    rcases Except.ok.inj hFirst with rfl
    rfl
  · intro first error _ hSame
    subst hSame
    rfl
  · intro error hError
    cases hError

/- The attributes of the items under some keys. -/
theorem ensures_getEach
    (hFree : setup.saved = none)
    (hSound : contents.Sound)
    (hMirrors : caches.Mirrors contents)
    (policies : Policies)
    (table : Table)
    (keys : List Scalar) :
    (getEach policies table keys).Ensures setup contents
      caches (Program.Reads setup contents fun outcome =>
        outcome.map
            (List.map (Option.map NameMap.normalized)) =
          contents.respondEach table.id keys) := by
  unfold Contents.respondEach
  induction keys generalizing caches with
  | nil => exact Program.ensures_reads_pure hSound hMirrors rfl
  | cons key rest ih =>
      rw [List.mapM_cons]
      apply (ensures_itemUnder hFree hSound hMirrors policies
        table key).reads_bind
      · intro found caches _ hMirrors hFound
        cases hKey : contents.lookUp table.id key with
        | error error => simp [hKey, Except.map] at hFound
        | ok row =>
            have hId : found = row.map ItemRow.id := by
              simpa [hKey, Except.map] using hFound
            subst hId
            cases row with
            | none =>
                exact ensures_getMore
                  (Program.ensures_reads_pure hSound hMirrors
                    rfl) fun caches hMirrors => ih hMirrors
            | some item =>
                exact ensures_getMore
                  (ensures_some_metadataOf hFree hSound
                    hMirrors item.id)
                  fun caches hMirrors => ih hMirrors
      · intro error hError
        cases hKey : contents.lookUp table.id key with
        | ok row => simp [hKey, Except.map] at hError
        | error other =>
            have hSame : error = other := by
              simpa [hKey, Except.map] using hError
            subst hSame
            rfl

/- A request is answered with what the contents say. -/
theorem ensures_get
    (hFree : setup.saved = none)
    (hSound : contents.Sound)
    (hMirrors : caches.Mirrors contents)
    (policies : Policies)
    (request : GetRequest) :
    (get policies request).Ensures setup contents caches
      (Program.Reads setup contents fun outcome =>
        outcome.map GetResponse.normalized =
          contents.respond request) := by
  have hFirst := (Tables.ensures_resolve hFree hSound
    hMirrors policies.rows request.table .lookup
    false).mono fun _ _ _ _ _ hFinds => hFinds.reads
  unfold Contents.respond
  apply hFirst.reads_bind
  · intro found caches hSound hMirrors hFound
    cases hCheck : Check.dictionary "Table" request.table with
    | error error => simp [hCheck, Except.map] at hFound
    | ok _ =>
        have hTable : found =
            contents.tableNamed? request.table := by
          simpa [hCheck, Except.map] using hFound
        subst hTable
        cases contents.tableNamed? request.table with
        | none =>
            exact Program.ensures_done hSound
              ⟨rfl, hMirrors, Or.inl rfl⟩
        | some table =>
            apply (ensures_getEach hFree hSound hMirrors
              policies table request.keys).reads_bind
            · intro items caches hSound hMirrors hItems
              apply Program.ensures_reads_pure hSound
                hMirrors
              exact congrArg
                (Except.map GetResponse.mk) hItems
            · intro error hError
              exact congrArg
                (Except.map GetResponse.mk) hError
  · intro error hError
    cases hCheck : Check.dictionary "Table" request.table with
    | ok _ => simp [hCheck, Except.map] at hError
    | error other =>
        have hSame : error = other := by
          simpa [hCheck, Except.map] using hError
        subst hSame
        rfl

end Session

end SparseTables
