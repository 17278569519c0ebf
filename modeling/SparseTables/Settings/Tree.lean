import SparseTables.Settings.Source

/-
  This file defines the tree that settings build, one
  assignment after another.

  A later assignment wins.  A step into something of the
  other kind replaces it: a name makes a section of it, and
  a place makes a list of it, with holes where nothing is
  set.

  Key definitions include:
    * `Setting.Tree`
    * `Setting.Tree.update`
    * `Setting.Tree.assign`
    * `Setting.Tree.member?`
-/

namespace SparseTables

namespace Setting

/- What is set at a place; a hole in a list is vacant. -/
inductive Tree where
  | vacant
  | leaf (content : Content)
  | list (items : List Tree)
  | table (entries : List (String × Tree))

namespace Tree

------------------------------------------------------------
-- Kinds
------------------------------------------------------------

/- The entries of a section; there are none elsewhere. -/
def entries : Tree → List (String × Tree)
  | table found => found
  | _ => []

/- The items of a list; there are none elsewhere. -/
def items : Tree → List Tree
  | list found => found
  | _ => []

/-
  A list that holds a place, and the place counted from its
  start.  It grows at the end for a place beyond it, and in
  front for one that counts back too far.
-/
def room (index : Int) (found : List Tree) : List Tree × Nat :=
  let back := index.natAbs
  if 0 ≤ index then
    (found ++ List.replicate (back + 1 - found.length) vacant,
      back)
  else
    (List.replicate (back - found.length) vacant ++ found,
      found.length - back)

------------------------------------------------------------
-- Changes
------------------------------------------------------------

/- Change what is at the end of a path. -/
def update
    (change : Tree → Tree) : List Step → Tree → Tree
  | [], tree => change tree
  | .key name :: rest, tree =>
      let old := (tree.entries.lookup name).getD vacant
      table ((name, update change rest old) ::
        tree.entries.filter fun entry => entry.1 != name)
  | .place index :: rest, tree =>
      let (found, place) := room index tree.items
      list (found.modify place (update change rest))

/- Make an assignment; only its first key spells a path. -/
def assign (tree : Tree) (setting : Setting) : Tree :=
  let change (old : Tree) : Tree :=
    match setting.value with
    | .content found => leaf found
    | .opened | .entered => table old.entries
  match setting.path with
  | [] => tree
  | first :: rest =>
      tree.update change (stepsOf first ++ rest.map .key)

------------------------------------------------------------
-- Members
------------------------------------------------------------

/-
  A member of a section.  A list can stand for a section:
  its items are the members in their order.
-/
def member?
    (names : List String)
    (name : String) : Tree → Option Tree
  | table entries => entries.lookup name
  | list items => items[names.idxOf name]?
  | _ => none

end Tree

end Setting

end SparseTables
