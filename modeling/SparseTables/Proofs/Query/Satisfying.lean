import SparseTables.Proofs.Query.Compiling

/-
  This file defines when records meet any criteria, searches
  and parameters of other kinds included.

  A parameter takes the kind of the column beside it.  A text
  is searched in the columns that hold texts.

  Main declarations:
    * `Operator.holdsIn`
    * `Contents.meets`
    * `Contents.satisfies`
    * `Contents.hasTexts`
    * `Contents.isTextual_of_expr?`
    * `Contents.isSome_source?`
-/

namespace SparseTables

------------------------------------------------------------
-- Parameters
------------------------------------------------------------

namespace Params

theorem lookup_setEntry
    (name other : String)
    (cell : Cell)
    (entries : List (String × Cell)) :
    (setEntry name cell entries).lookup other =
      if other = name then some cell
      else entries.lookup other := by
  induction entries with
  | nil => rw [setEntry, lookup_cons_eq]
  | cons first rest ih =>
      rcases first with ⟨label, old⟩
      rw [setEntry, lookup_cons_eq (label, old)]
      by_cases hFirst : label = name
      · rw [if_pos hFirst, lookup_cons_eq, hFirst]
        by_cases hSame : other = name <;> simp [hSame]
      · rw [if_neg hFirst, lookup_cons_eq, ih]
        by_cases hLabel : other = label
        · simp [hLabel, hFirst]
        · simp [hLabel]

/- The parameters of a map are its entries. -/
theorem get?_ofScalars
    (map : NameMap Scalar)
    (name : String) :
    (ofScalars map.entries).get? name =
      (map.get? name).map Scalar.cell := by
  have hFold : ∀ (entries : List (String × Scalar))
      (params : Params), NameMap.Sorted entries →
      (entries.foldl (fun params pair =>
        params.set pair.1 pair.2.cell) params).get? name =
        ((entries.lookup name).map Scalar.cell).or
          (params.get? name) := by
    intro entries
    induction entries with
    | nil => intro params hSorted; rfl
    | cons first rest ih =>
        intro params hSorted
        rcases List.pairwise_cons.1 hSorted with
          ⟨hFirst, hRest⟩
        rw [List.foldl_cons, ih _ hRest, get?, set,
          lookup_setEntry, lookup_cons_eq]
        by_cases hSame : name = first.1
        · have hNone : rest.lookup name = none := by
            rw [List.lookup_eq_none_iff]
            intro entry hEntry
            have hLess := hFirst entry hEntry
            simp only [hSame, bne_iff_ne, ne_eq]
            exact String.ne_of_lt hLess
          rw [hNone]
          simp [hSame]
        · simp [hSame, get?]
  rw [ofScalars, hFold _ _ map.sorted, NameMap.get?]
  cases map.entries.lookup name <;> rfl

end Params

/- The cell of a parameter; what is not set is null. -/
def Select.argument (query : Select) (name : String) : Cell :=
  .ofOption ((query.params.get? name).filter
    Scalar.isStorable)

theorem Params.bound_eq_argument
    (query : Select)
    (name : String) :
    (Params.ofScalars query.params.entries).bound name =
      query.argument name := by
  rw [bound, get?_ofScalars, Select.argument]
  cases query.params.get? name with
  | none => rfl
  | some value =>
      cases value with
      | text s => rfl
      | number x =>
          cases hNaN : x.isNaN <;>
            simp [Scalar.cell, Option.filter,
              Scalar.isStorable, hNaN, Cell.ofOption]

------------------------------------------------------------
-- Comparisons
------------------------------------------------------------

/-
  Does a comparison hold between a cell of a column for texts
  or for numbers and a parameter, which takes the kind of the
  column?
-/
def Operator.holdsIn
    (op : Operator)
    (textual : Bool)
    (cell param : Cell) : Bool :=
  if cell.isNull || param.isNull then
    false
  else if op = .like then
    match param.storedText?, cell.storedText? with
    | some pattern, some text => Pattern.accepts pattern text
    | _, _ => false
  else
    op.admits (cell.compare
      (if textual then param.textual else param.numeric))

theorem Operator.holds_eq_holdsIn
    (op : Operator)
    (left : Expr)
    (cell param : Cell) :
    op.holds left cell param =
      op.holdsIn left.isTextual cell param :=
  rfl

theorem Expr.isTextual_ofKind
    (label : String)
    (numeric : Bool) :
    (Expr.value label (.ofKind numeric)).isTextual =
      !numeric := by
  cases numeric <;> rfl

------------------------------------------------------------
-- Criteria
------------------------------------------------------------

/- Does a criterion search a text? -/
def Criterion.isSearch (part : Criterion) : Bool :=
  Word.sameLetters part.op "matches"

/- The search that a criterion asks for, if it can be read. -/
def Select.search?
    (query : Select)
    (part : Criterion) : Option Search :=
  Search.read?
    ((query.argument part.param).storedText?.getD "")

namespace Contents

/- Is a column for texts? -/
def isTextual
    (contents : Contents)
    (table : Table)
    (column : String) : Bool :=
  if Word.isKey column then
    !table.numeric
  else
    !Word.isReserved column &&
      (contents.attributeNamed? table.id column).any
        fun row => !row.numeric

/- Can a column be searched? -/
def isSearchable
    (contents : Contents)
    (table : Table)
    (column : String) : Bool :=
  if Word.isKey column then
    !table.numeric
  else
    !Word.isReserved column &&
      (contents.attributeNamed? table.id column).isSome

/- Is a comparison true of a record? -/
def compares
    (contents : Contents)
    (query : Select)
    (table : Table)
    (record : Record)
    (part : Criterion) : Bool :=
  (Operator.ofText? part.op).any fun op =>
    op.holdsIn (contents.isTextual table part.name)
      (record.cell part.name) (query.argument part.param)

/- Does a text of a record have what a search asks for? -/
def finds
    (contents : Contents)
    (query : Select)
    (table : Table)
    (record : Record)
    (part : Criterion) : Bool :=
  contents.isSearchable table part.name &&
    (record.cell part.name).text?.any fun text =>
      (query.search? part).any fun search =>
        search.holds (Terms.ofText text)

/- Does a record meet a criterion? -/
def meets
    (contents : Contents)
    (query : Select)
    (table : Table)
    (record : Record)
    (part : Criterion) : Bool :=
  if part.isSearch then
    contents.finds query table record part
  else
    contents.compares query table record part

/- Does a record meet all criteria of a group, or one? -/
def meetsGroup
    (contents : Contents)
    (query : Select)
    (table : Table)
    (record : Record)
    (group : Group) : Bool :=
  match group.combine with
  | .all =>
      group.criteria.all (contents.meets query table record)
  | .any =>
      group.criteria.any (contents.meets query table record)

/- Does a record meet every group that is not empty? -/
def satisfies
    (contents : Contents)
    (query : Select)
    (table : Table)
    (record : Record) : Bool :=
  query.groups.all fun group =>
    group.criteria.isEmpty ||
      contents.meetsGroup query table record group

/- Does a record have a text wherever one is searched? -/
def hasTexts
    (contents : Contents)
    (query : Select)
    (table : Table)
    (record : Record) : Bool :=
  query.criteria.all fun part =>
    !(part.isSearch && contents.isSearchable table part.name)
      || (record.cell part.name).text?.isSome

variable {contents : Contents} {table : Table}
variable {query : Select}

------------------------------------------------------------
-- What columns stand for
------------------------------------------------------------

/- The kind of what a column stands for. -/
theorem isTextual_of_expr?
    {column : String}
    {left : Expr}
    (hExpr : (contents.scopeOf query table).expr? column =
      some left) :
    left.isTextual = contents.isTextual table column := by
  unfold Scope.expr? at hExpr
  split at hExpr
  · rename_i bound hFind
    rcases Scope.mem_of_find? hFind with ⟨hBound, rfl⟩
    rcases attributeNamed?_of_bound hBound with
      ⟨hWord, hRow⟩
    have hKey : Word.isKey bound.column = false := by
      rw [← Bool.not_eq_true, Word.isKey_iff]
      exact Word.lower_ne hWord (by simp [Word.reserved])
    rw [← Option.some.inj hExpr, Expr.isTextual_ofKind,
      isTextual, hKey, hWord, hRow]
    rfl
  · rename_i hFind
    have hOther {word : String}
        (hReserved : word ∈ Word.reserved)
        (hValue : Word.lower column ≠ "value")
        (hWord : Word.lower column = word) :
        contents.isTextual table column = false := by
      have hKey : Word.isKey column = false := by
        rwa [← Bool.not_eq_true, Word.isKey_iff]
      rw [isTextual, hKey, Word.isReserved, hWord,
        List.contains_iff_mem.2 hReserved]
      rfl
    unfold Scope.pseudo? at hExpr
    simp only [beq_iff_eq, scopeOf, Select.scope,
      Option.map_some] at hExpr
    split_ifs at hExpr with hValue hIdentity hCreated
      hModified
    · rw [← Option.some.inj hExpr, Expr.isTextual_ofKind,
        isTextual, (Word.isKey_iff column).2 hValue]
      rfl
    · rw [← Option.some.inj hExpr,
        hOther (by simp [Word.reserved]) hValue hIdentity]
      rfl
    · rw [← Option.some.inj hExpr,
        hOther (by simp [Word.reserved]) hValue hCreated]
      rfl
    · rw [← Option.some.inj hExpr,
        hOther (by simp [Word.reserved]) hValue hModified]
      rfl

/- A column can be searched if it stands for a value. -/
theorem isSome_source?
    {column : String}
    (hColumn : column ∈ query.referenced) :
    ((contents.scopeOf query table).source? column).isSome =
      contents.isSearchable table column := by
  unfold Scope.source? isSearchable
  by_cases hKey : Word.isKey column = true
  · simp only [hKey, if_true, scopeOf, Select.scope]
    cases table.numeric <;> rfl
  · rw [if_neg hKey, if_neg hKey, Option.isSome_map]
    by_cases hWord : Word.isReserved column = true
    · rw [hWord, Bool.not_true, Bool.false_and,
        Option.isSome_eq_false_iff,
        Option.isNone_iff_eq_none]
      by_contra hFound
      rcases Option.ne_none_iff_exists'.1 hFound with
        ⟨bound, hFind⟩
      rcases Scope.mem_of_find? hFind with ⟨hBound, rfl⟩
      rw [(attributeNamed?_of_bound hBound).1] at hWord
      cases hWord
    · rw [Bool.not_eq_true] at hWord
      rw [hWord, Bool.not_false, Bool.true_and,
        Bool.eq_iff_iff]
      constructor
      · intro hFound
        rcases Option.isSome_iff_exists.1 hFound with
          ⟨bound, hFind⟩
        rcases Scope.mem_of_find? hFind with ⟨hBound, rfl⟩
        rw [(attributeNamed?_of_bound hBound).2]
        rfl
      · intro hKnown
        rcases Option.isSome_iff_exists.1 hKnown with
          ⟨row, hRow⟩
        exact isSome_find? hColumn hWord hRow

end Contents

end SparseTables
