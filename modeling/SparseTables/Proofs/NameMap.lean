import Mathlib.Data.List.Nodup
import Mathlib.Data.List.Sort
import SparseTables.NameMap

/-
  This file gives the theory of maps from names: what is
  found after an entry was inserted or erased, and that maps
  are equal if the same is found in both.

  Main declarations:
    * `NameMap.erase`
    * `NameMap.map`
    * `NameMap.setAll`
    * `NameMap.mem_entries_iff`
    * `NameMap.ext_get?`
    * `NameMap.get?_insert`
    * `NameMap.get?_erase`
    * `NameMap.get?_ofList`
    * `NameMap.ofList_entries`
-/

namespace SparseTables

/- An association list gives what stands first for a key. -/
theorem lookup_cons_eq
    {κ α : Type}
    [DecidableEq κ]
    (first : κ × α)
    (rest : List (κ × α))
    (key : κ) :
    (first :: rest).lookup key =
      if key = first.1 then
        some first.2
      else
        rest.lookup key := by
  rw [List.lookup_cons]
  by_cases hKey : key = first.1
  · simp [hKey]
  · rw [beq_eq_false_iff_ne.2 hKey, if_neg hKey]

namespace NameMap

variable {α β : Type}

------------------------------------------------------------
-- Entries
------------------------------------------------------------

/- An entry is what is found under its name. -/
theorem lookup_eq_some_iff_of_sorted
    {entries : List (String × α)}
    (hSorted : Sorted entries)
    {name : String}
    {value : α} :
    entries.lookup name = some value ↔
      (name, value) ∈ entries := by
  induction entries with
  | nil => simp
  | cons first rest ih =>
      rcases List.pairwise_cons.1 hSorted with ⟨hFirst, hRest⟩
      rw [lookup_cons_eq, List.mem_cons, Prod.ext_iff]
      by_cases hName : name = first.1
      · have hLater : (first.1, value) ∉ rest := fun hMem =>
          String.lt_irrefl _ (hFirst (first.1, value) hMem)
        simp [hName, hLater, eq_comm]
      · simp [hName, ih hRest]

theorem mem_entries_iff
    {map : NameMap α}
    {name : String}
    {value : α} :
    (name, value) ∈ map.entries ↔
      map.get? name = some value :=
  (lookup_eq_some_iff_of_sorted map.sorted).symm

/- Maps are equal if the same is found in both. -/
theorem ext_get?
    {map other : NameMap α}
    (hSame : ∀ name, map.get? name = other.get? name) :
    map = other := by
  have hEntries : map.entries = other.entries := by
    apply List.Pairwise.eq_of_mem_iff map.sorted other.sorted
    intro entry
    rcases entry with ⟨name, value⟩
    rw [mem_entries_iff, mem_entries_iff, hSame]
  cases map
  cases other
  cases hEntries
  rfl

------------------------------------------------------------
-- Inserting and erasing
------------------------------------------------------------

@[simp] theorem get?_empty (name : String) :
    (empty : NameMap α).get? name = none :=
  rfl

@[simp] theorem get?_insert
    (map : NameMap α)
    (name : String)
    (value : α)
    (other : String) :
    (map.insert name value).get? other =
      if other = name then some value else map.get? other := by
  change (insertEntry name value map.entries).lookup other =
    if other = name then some value
    else map.entries.lookup other
  induction map.entries with
  | nil =>
      rw [insertEntry, lookup_cons_eq]
  | cons first rest ih =>
      simp only [insertEntry]
      split
      · rw [lookup_cons_eq]
      · split
        · rename_i hMore
          have hDiffers : first.1 ≠ name :=
            fun hEq => String.lt_irrefl _ (hEq ▸ hMore)
          rw [lookup_cons_eq, lookup_cons_eq, ih]
          by_cases hOther : other = first.1
          · simp [hOther, hDiffers]
          · simp [hOther]
        · rename_i hNotLess hNotMore
          have hName : name = first.1 :=
            String.le_antisymm
              (String.not_lt.1 hNotMore)
              (String.not_lt.1 hNotLess)
          rw [lookup_cons_eq, lookup_cons_eq, hName]
          split <;> rfl

/- Erase the value under a name. -/
def erase (map : NameMap α) (name : String) : NameMap α :=
  ⟨map.entries.filter fun entry => entry.1 != name,
    map.sorted.sublist List.filter_sublist⟩

@[simp] theorem get?_erase
    (map : NameMap α)
    (name other : String) :
    (map.erase name).get? other =
      if other = name then none else map.get? other := by
  change (map.entries.filter fun entry =>
      entry.1 != name).lookup other =
    if other = name then none else map.entries.lookup other
  induction map.entries with
  | nil => simp
  | cons first rest ih =>
      by_cases hName : first.1 = name
      · rw [List.filter_cons_of_neg (by simp [hName]), ih,
          lookup_cons_eq]
        by_cases hOther : other = name
        · simp [hOther]
        · simp [hOther, hName]
      · rw [List.filter_cons_of_pos (by simp [hName]),
          lookup_cons_eq, lookup_cons_eq, ih]
        by_cases hOther : other = first.1
        · simp [hOther, hName]
        · simp [hOther]

------------------------------------------------------------
-- Changing values
------------------------------------------------------------

/- Change all values. -/
def map (map : NameMap α) (change : α → β) : NameMap β :=
  ⟨map.entries.map fun entry => (entry.1, change entry.2), by
    rw [Sorted, List.pairwise_map]
    exact map.sorted⟩

@[simp] theorem get?_map
    (map : NameMap α)
    (change : α → β)
    (name : String) :
    (map.map change).get? name =
      (map.get? name).map change := by
  change (map.entries.map fun entry =>
      (entry.1, change entry.2)).lookup name =
    (map.entries.lookup name).map change
  induction map.entries with
  | nil => rfl
  | cons first rest ih =>
      rw [List.map_cons, lookup_cons_eq, lookup_cons_eq, ih]
      split <;> rfl

@[simp] theorem map_insert
    (map : NameMap α)
    (change : α → β)
    (name : String)
    (value : α) :
    (map.insert name value).map change =
      (map.map change).insert name (change value) := by
  refine ext_get? fun other => ?_
  simp only [get?_map, get?_insert]
  split <;> rfl

@[simp] theorem map_erase
    (map : NameMap α)
    (change : α → β)
    (name : String) :
    (map.erase name).map change =
      (map.map change).erase name := by
  refine ext_get? fun other => ?_
  simp only [get?_map, get?_erase]
  split <;> rfl

------------------------------------------------------------
-- Setting
------------------------------------------------------------

/- Insert a value under a name, or erase the one there. -/
def set
    (map : NameMap α)
    (name : String) : Option α → NameMap α
  | some value => map.insert name value
  | none => map.erase name

/- Set entries one after another. -/
def setAll
    (map : NameMap α)
    (entries : List (String × Option α)) : NameMap α :=
  entries.foldl
    (fun map entry => map.set entry.1 entry.2) map

------------------------------------------------------------
-- Lists of entries
------------------------------------------------------------

/- Entries with one name have one value. -/
def Functional (entries : List (String × α)) : Prop :=
  ∀ entry ∈ entries, ∀ other ∈ entries,
    entry.1 = other.1 → entry.2 = other.2

/- Inserting entries one after another keeps each of them. -/
theorem get?_foldl_insert
    {entries : List (String × α)}
    (hEntries : Functional entries)
    (map : NameMap α)
    {name : String} :
    (entries.foldl (fun map entry =>
        map.insert entry.1 entry.2) map).get? name =
      ((entries.find? fun entry =>
        entry.1 == name).map Prod.snd).or
          (map.get? name) := by
  induction entries generalizing map with
  | nil => simp
  | cons first rest ih =>
      have hRest : Functional rest :=
        fun entry hEntry other hOther =>
          hEntries entry (List.mem_cons_of_mem _ hEntry)
            other (List.mem_cons_of_mem _ hOther)
      rw [List.foldl_cons, ih hRest, List.find?_cons,
        get?_insert]
      by_cases hName : first.1 = name
      · subst hName
        cases hFind : rest.find? fun entry =>
            entry.1 == first.1 with
        | none => simp
        | some other =>
            have hOther := List.mem_of_find?_eq_some hFind
            have hSame : other.1 = first.1 := by
              simpa using List.find?_some hFind
            have hValue := hEntries other
              (List.mem_cons_of_mem _ hOther) first
              List.mem_cons_self hSame
            simp [hValue]
      · rw [beq_eq_false_iff_ne.2 hName,
          if_neg fun hEq => hName hEq.symm]

/- What is found among inserted entries is one of them. -/
theorem get?_ofList
    {entries : List (String × α)}
    (hEntries : Functional entries)
    {name : String}
    {value : α} :
    (ofList entries).get? name = some value ↔
      (name, value) ∈ entries := by
  rw [ofList, get?_foldl_insert hEntries, get?_empty,
    Option.or_none, Option.map_eq_some_iff]
  constructor
  · intro hFound
    rcases hFound with ⟨entry, hFind, rfl⟩
    have hName : entry.1 = name := by
      simpa using List.find?_some hFind
    rw [← hName]
    exact List.mem_of_find?_eq_some hFind
  · intro hMem
    cases hFind : entries.find? fun entry =>
        entry.1 == name with
    | none =>
        have hNot := List.find?_eq_none.1 hFind _ hMem
        simp at hNot
    | some entry =>
        have hName : entry.1 = name := by
          simpa using List.find?_some hFind
        exact ⟨entry, rfl, hEntries entry
          (List.mem_of_find?_eq_some hFind) _ hMem hName⟩

/- A map is what its own entries give. -/
theorem functional_entries (map : NameMap α) :
    Functional map.entries := by
  rintro ⟨name, value⟩ hEntry ⟨other, found⟩ hOther hName
  cases hName
  rw [mem_entries_iff] at hEntry hOther
  exact Option.some.inj (hEntry.symm.trans hOther)

theorem ofList_entries (map : NameMap α) :
    ofList map.entries = map := by
  refine ext_get? fun name => Option.ext fun value => ?_
  rw [get?_ofList map.functional_entries, mem_entries_iff]

/- An entry of a map that is made from a list is listed. -/
theorem mem_of_mem_foldl_insert
    {map : NameMap α}
    {entries : List (String × α)}
    {entry : String × α}
    (hMem : entry ∈ (entries.foldl (fun map entry =>
      map.insert entry.1 entry.2) map).entries) :
    entry ∈ map.entries ∨ entry ∈ entries := by
  induction entries generalizing map with
  | nil => exact .inl hMem
  | cons first rest ih =>
      rcases ih hMem with hInserted | hRest
      · rcases mem_insertEntry hInserted with rfl | hOld
        · exact .inr List.mem_cons_self
        · exact .inl hOld
      · exact .inr (List.mem_cons_of_mem _ hRest)

theorem mem_of_mem_ofList
    {entries : List (String × α)}
    {entry : String × α}
    (hMem : entry ∈ (ofList entries).entries) :
    entry ∈ entries :=
  (mem_of_mem_foldl_insert hMem).resolve_left
    List.not_mem_nil

end NameMap

end SparseTables
