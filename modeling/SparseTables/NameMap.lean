/-
  This file defines maps from names to values whose entries
  are sorted by name.  Two maps with the same entries are
  equal, and entries are listed in the order of the names.

  Key definitions include:
    * `NameMap`
    * `NameMap.get?`
    * `NameMap.insert`
    * `NameMap.ofList`
-/

namespace SparseTables

------------------------------------------------------------
-- Sorted entries
------------------------------------------------------------

namespace NameMap

variable {α : Type}

/- The names rise from each entry to every later one. -/
def Sorted (entries : List (String × α)) : Prop :=
  entries.Pairwise fun left right => left.1 < right.1

/- Put an entry at its place, instead of its namesake. -/
def insertEntry
    (name : String)
    (value : α) :
    List (String × α) → List (String × α)
  | [] => [(name, value)]
  | (other, old) :: rest =>
      if name < other then
        (name, value) :: (other, old) :: rest
      else if other < name then
        (other, old) :: insertEntry name value rest
      else
        (name, value) :: rest

/- An inserted entry is the new one or an old one. -/
theorem mem_insertEntry
    {name : String}
    {value : α}
    {entry : String × α}
    {entries : List (String × α)}
    (h : entry ∈ insertEntry name value entries) :
    entry = (name, value) ∨ entry ∈ entries := by
  induction entries with
  | nil =>
      exact Or.inl (by simpa [insertEntry] using h)
  | cons first rest ih =>
      simp only [insertEntry] at h
      split at h
      · simpa using h
      · split at h
        · rcases List.mem_cons.1 h with h | h
          · exact Or.inr (by simp [h])
          · rcases ih h with h | h
            · exact Or.inl h
            · exact Or.inr (List.mem_cons_of_mem _ h)
        · rcases List.mem_cons.1 h with h | h
          · exact Or.inl h
          · exact Or.inr (List.mem_cons_of_mem _ h)

/- Sorted entries stay sorted. -/
theorem sorted_insertEntry
    (name : String)
    (value : α)
    {entries : List (String × α)}
    (h : Sorted entries) :
    Sorted (insertEntry name value entries) := by
  induction entries with
  | nil => simp [insertEntry, Sorted]
  | cons first rest ih =>
      obtain ⟨hFirst, hRest⟩ := List.pairwise_cons.1 h
      simp only [insertEntry]
      split
      · rename_i hLess
        refine List.pairwise_cons.2 ⟨?_, h⟩
        intro entry hEntry
        rcases List.mem_cons.1 hEntry with hEntry | hEntry
        · simpa [hEntry] using hLess
        · exact String.lt_trans hLess (hFirst entry hEntry)
      · split
        · rename_i hMore
          refine List.pairwise_cons.2 ⟨?_, ih hRest⟩
          intro entry hEntry
          rcases mem_insertEntry hEntry with hEntry | hEntry
          · simpa [hEntry] using hMore
          · exact hFirst entry hEntry
        · rename_i hNotLess hNotMore
          have hSame : name = first.1 :=
            String.le_antisymm
              (String.not_lt.1 hNotMore)
              (String.not_lt.1 hNotLess)
          refine List.pairwise_cons.2 ⟨?_, hRest⟩
          intro entry hEntry
          exact hSame ▸ hFirst entry hEntry

end NameMap

------------------------------------------------------------
-- Maps
------------------------------------------------------------

/- Entries in the order of their names. -/
structure NameMap (α : Type) where
  entries : List (String × α)
  sorted : NameMap.Sorted entries
deriving DecidableEq

namespace NameMap

variable {α : Type}

def empty : NameMap α :=
  ⟨[], List.Pairwise.nil⟩

instance : Inhabited (NameMap α) :=
  ⟨empty⟩

/- The value under a name. -/
def get? (map : NameMap α) (name : String) : Option α :=
  map.entries.lookup name

/- Set the value under a name. -/
def insert
    (map : NameMap α)
    (name : String)
    (value : α) : NameMap α :=
  ⟨insertEntry name value map.entries,
    sorted_insertEntry name value map.sorted⟩

/- Insert entries one after another. -/
def ofList (entries : List (String × α)) : NameMap α :=
  entries.foldl (fun map entry =>
    map.insert entry.1 entry.2) empty

end NameMap

end SparseTables
