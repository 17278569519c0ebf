import Mathlib.Data.Nat.Digits.Defs
import SparseTables.Proofs.Loops
import SparseTables.Proofs.Query.Reading
import SparseTables.Proofs.Query.Splitting

/-
  This file shows which texts are read as queries.

  A text is read if and only if its tokens spell a phrase
  whose parts are all valid.  The query then holds the parts
  of the phrase.  If the tokens spell a phrase with invalid
  parts, the first of these is reported, and if they spell no
  phrase, the text cannot be parsed.

  Main declarations:
    * `Draft.limitValue?_eq_some_iff`
    * `QueryPhrase.parts`
    * `QueryPhrase.Means`
    * `QueryPhrase.check_draft`
    * `Select.read_follows_phrase`
-/

namespace SparseTables

------------------------------------------------------------
-- Values of limits
------------------------------------------------------------

/- The number that decimal digits write. -/
def decimal (digits : List Char) : Nat :=
  Nat.ofDigits 10
    (digits.reverse.map fun c => c.toNat - '0'.toNat)

/-
  Does the text write an integer of 64 bits that is not
  negative?  Minus zero is not.
-/
def Writes (text : String) (value : Nat) : Prop :=
  ∃ sign digits : List Char, text.toList = sign ++ digits ∧
    (sign = [] ∨ sign = ['+'] ∨ sign = ['-'] ∧ value = 0) ∧
    digits ≠ [] ∧ (∀ c ∈ digits, c.isDigit = true) ∧
    value = decimal digits ∧ value < 2 ^ 63

theorem foldl_eq_decimal (digits : List Char) :
    digits.foldl (fun n c => 10 * n + (c.toNat - 48)) 0 =
      decimal digits := by
  induction digits using List.reverseRecOn with
  | nil => rfl
  | append_singleton init last ih =>
      rw [List.foldl_append, ih]
      simp [decimal, Nat.ofDigits_cons, Nat.add_comm]

namespace Draft

/- The value of digits behind a sign that was read. -/
theorem value_eq_some_iff
    {negative : Bool}
    {digits : List Char}
    {value : Nat} :
    (if digits.isEmpty || !digits.all Char.isDigit then none
      else if negative && decimal digits != 0 then none
      else if Bounds.isSigned64 (decimal digits) then
        some (decimal digits)
      else none) = some value ↔
      (negative = true → value = 0) ∧ digits ≠ [] ∧
        (∀ c ∈ digits, c.isDigit = true) ∧
        value = decimal digits ∧ value < 2 ^ 63 := by
  have hBound : Bounds.isSigned64 (decimal digits) = true ↔
      decimal digits < 2 ^ 63 := by
    unfold Bounds.isSigned64 Bounds.signed64
    rw [decide_eq_true_iff]
    omega
  by_cases hSome : digits = []
  · simp [hSome]
  by_cases hDigits : ∀ c ∈ digits, c.isDigit = true
  · have hNow : (digits.isEmpty ||
        !digits.all Char.isDigit) = false := by
      simpa [hSome] using hDigits
    rw [hNow]
    have hMinus : (negative && decimal digits != 0) = true ↔
        ¬(negative = true → decimal digits = 0) := by
      simp
    rw [if_neg Bool.false_ne_true]
    simp only [hMinus, hBound]
    constructor
    · intro hValue
      split at hValue
      · cases hValue
      · rename_i hZero
        split at hValue
        · rename_i hFits
          cases hValue
          exact ⟨not_not.1 hZero, hSome, hDigits, rfl, hFits⟩
        · cases hValue
    · rintro ⟨hZero, -, -, rfl, hFits⟩
      rw [if_neg (not_not.2 hZero), if_pos hFits]
  · have hNow : digits.all Char.isDigit = false := by
      simpa using hDigits
    simp [hNow, hDigits]

theorem limitValue?_eq_some_iff
    {text : String}
    {value : Nat} :
    limitValue? text = some value ↔ Writes text value := by
  unfold limitValue? Writes
  simp only [foldl_eq_decimal]
  generalize text.toList = cs
  split
  · rename_i rest
    rw [value_eq_some_iff]
    constructor
    · intro ⟨hZero, hDigits⟩
      exact ⟨['-'], rest, rfl, .inr (.inr ⟨rfl, hZero rfl⟩),
        hDigits⟩
    · rintro ⟨sign, digits, hText, hSign, hDigits⟩
      rcases hSign with rfl | rfl | ⟨rfl, hZero⟩
      · subst hText
        simp at hDigits
      · cases hText
      · cases hText
        exact ⟨fun _ => hZero, hDigits⟩
  · rename_i rest
    rw [value_eq_some_iff]
    constructor
    · intro ⟨_, hDigits⟩
      exact ⟨['+'], rest, rfl, .inr (.inl rfl), hDigits⟩
    · rintro ⟨sign, digits, hText, hSign, hDigits⟩
      rcases hSign with rfl | rfl | ⟨rfl, hZero⟩
      · subst hText
        simp at hDigits
      · cases hText
        exact ⟨nofun, hDigits⟩
      · cases hText
  · rename_i hMinus hPlus
    rw [value_eq_some_iff]
    constructor
    · intro ⟨_, hDigits⟩
      exact ⟨[], cs, rfl, .inl rfl, hDigits⟩
    · rintro ⟨sign, digits, rfl, hSign, hDigits⟩
      rcases hSign with rfl | rfl | ⟨rfl, hZero⟩
      · exact ⟨nofun, hDigits⟩
      · exact absurd rfl (hPlus digits)
      · exact absurd rfl (hMinus digits)

end Draft

------------------------------------------------------------
-- Parts of phrases
------------------------------------------------------------

/- A part of a phrase that is checked. -/
inductive Part where
  | column (name : String)
  | source (name : String)
  | operator (text : String)
  | parameter (name : String)
  | limit (text : String)

namespace Part

def Valid : Part → Prop
  | column name => Word.isWord name = true
  | source name => Word.isWord name = true
  | operator text => Word.isOperator text = true
  | parameter name => Word.isParameter name = true
  | limit text => ∃ value, Writes text value

/- The error for a part that is not valid. -/
def fault (statement : String) : Part → Error
  | column name => .validation (.columnName name statement)
  | source name => .validation (.tableName name statement)
  | operator text => .validation (.operator text statement)
  | parameter name =>
      .validation (.parameterName name statement)
  | limit _ => .parse .limitValue statement

def check (statement : String) : Part → Except Error Unit
  | column name => Check.column name statement
  | source name => Check.table name statement
  | operator text => Check.operator text statement
  | parameter name => Check.parameter name statement
  | limit text =>
      match Draft.limitValue? text with
      | some _ => .ok ()
      | none => .error (.parse .limitValue statement)

variable {part : Part} {statement : String}

theorem check_of_valid (hValid : part.Valid) :
    part.check statement = .ok () := by
  cases part with
  | limit text =>
      obtain ⟨value, hWrites⟩ := hValid
      rw [check, Draft.limitValue?_eq_some_iff.2 hWrites]
  | _ => exact if_pos hValid

theorem check_of_not_valid (hValid : ¬part.Valid) :
    part.check statement = .error (part.fault statement) := by
  cases part with
  | limit text =>
      have hNone : Draft.limitValue? text = none := by
        rw [Option.eq_none_iff_forall_ne_some]
        exact fun value hValue =>
          hValid ⟨value, Draft.limitValue?_eq_some_iff.1 hValue⟩
      rw [check, hNone]
      rfl
  | _ => exact if_neg hValid

end Part

def Criterion.parts (part : Criterion) : List Part :=
  [.column part.name, .operator part.op, .parameter part.param]

namespace QueryPhrase

/- The parts of a phrase, from left to right. -/
def parts (phrase : QueryPhrase) : List Part :=
  phrase.columns.toList.map .column ++
    .source phrase.source ::
      (phrase.criteria.elim []
          (fun criteria => criteria.toList.flatMap
            Criterion.parts) ++
        (phrase.orders.elim []
            (fun orders => orders.toList.map
              fun term => .column term.column) ++
          phrase.limit.toList.map .limit))

/- The query that holds what a phrase says, and no more. -/
structure Means
    (phrase : QueryPhrase)
    (query : Select) : Prop where
  columns : query.columns = phrase.columns.toList
  source : query.source = phrase.source
  groups : query.groups = phrase.criteria.elim []
    fun criteria => [⟨.all, criteria.toList.map fun part =>
      ⟨part.name, Word.lower part.op, part.param⟩⟩]
  orders : query.orders = phrase.orders.elim []
    fun orders => orders.toList.map fun term =>
      ⟨term.column, decide (term.descending? = some true)⟩
  limit : match phrase.limit with
    | none => query.limit = 0
    | some text => Writes text query.limit
  params : query.params = .empty

/- What is read from a draft whose parts are all valid. -/
def query (phrase : QueryPhrase) : Select where
  columns := phrase.columns.toList
  source := phrase.source
  groups := phrase.criteria.elim [] fun criteria =>
    [⟨.all, criteria.toList.map Draft.lowered⟩]
  orders := phrase.orders.elim [] fun orders =>
    orders.toList.map OrderTerm.order
  limit := (phrase.limit.bind Draft.limitValue?).getD 0
  params := .empty

theorem criteria_query (phrase : QueryPhrase) :
    phrase.query.criteria =
      (phrase.criteria.elim [] Series.toList).map
        Draft.lowered := by
  cases hCriteria : phrase.criteria <;>
    simp [query, Select.criteria, hCriteria]

theorem forM_criteria
    {statement : String}
    (criteria : Option (Series Criterion)) :
    (criteria.elim [] Series.toList).forM
        (fun part => Check.criterion part statement) =
      (criteria.elim [] fun criteria =>
        criteria.toList.flatMap Criterion.parts).forM
        (Part.check statement) := by
  cases criteria with
  | none => rfl
  | some criteria =>
      rw [Option.elim_some, Option.elim_some,
        Except.forM_flatMap]
      congr 1
      funext part
      simp [Criterion.parts, Part.check, Check.criterion]

theorem forM_orders
    {statement : String}
    (orders : Option (Series OrderTerm)) :
    (orders.elim [] fun orders =>
          orders.toList.map OrderTerm.order).forM
        (fun order => Check.column order.field statement) =
      (orders.elim [] fun orders =>
        orders.toList.map fun term =>
          Part.column term.column).forM
        (Part.check statement) := by
  cases orders <;> simp [Part.check, OrderTerm.order]

/- A draft is checked part by part, from left to right. -/
theorem check_draft
    (phrase : QueryPhrase)
    (statement : String) :
    phrase.draft.check statement =
      phrase.parts.forM (Part.check statement) >>= fun _ =>
        .ok phrase.query := by
  have hGroups :
      (if phrase.draft.conditional then
        [⟨.all, phrase.draft.criteria.map Draft.lowered⟩]
      else []) = phrase.query.groups := by
    cases hCriteria : phrase.criteria <;>
      simp [query, hCriteria]
  unfold Draft.check
  rw [hGroups]
  simp only [draft, parts, forM_criteria, forM_orders]
  simp only [List.forM_eq_forM, List.forM_append,
    List.forM_cons, List.forM_map, bind_assoc, Part.check]
  refine bind_congr fun _ => bind_congr fun _ =>
    bind_congr fun _ => bind_congr fun _ => ?_
  cases hLimit : phrase.limit with
  | none => simp [query, hLimit]; rfl
  | some text =>
      cases hValue : Draft.limitValue? text with
      | none => simp [hValue]; rfl
      | some value => simp [query, hLimit, hValue]; rfl

theorem means_query
    {phrase : QueryPhrase}
    (hValid : ∀ part ∈ phrase.parts, part.Valid) :
    phrase.Means phrase.query where
  columns := rfl
  source := rfl
  groups := by
    cases hCriteria : phrase.criteria <;>
      simp [query, hCriteria, Draft.lowered]
  orders := by
    cases hOrders : phrase.orders with
    | none => simp [query, hOrders]
    | some orders =>
        simp only [query, hOrders, Option.elim_some]
        refine List.map_congr_left fun term _ => ?_
        rcases term with ⟨column, _ | _ | _⟩ <;> rfl
  limit := by
    cases hLimit : phrase.limit with
    | none => simp [query, hLimit]
    | some text =>
        have hMem : Part.limit text ∈ phrase.parts := by
          simp [parts, hLimit]
        obtain ⟨value, hWrites⟩ := hValid _ hMem
        have hValue := Draft.limitValue?_eq_some_iff.2 hWrites
        simpa [query, hLimit, hValue] using hWrites
  params := rfl

end QueryPhrase

------------------------------------------------------------
-- Texts of queries
------------------------------------------------------------

namespace Select

variable {text : String} {phrase : QueryPhrase}

/- Whatever spells a phrase is checked part by part. -/
theorem read_of_spelled
    (hSpelled : phrase.SpelledBy
      ((Token.scan text).1.map Token.text)) :
    read text = phrase.draft.check text := by
  have hTokens : (Word.tokens text).isEmpty = false := by
    rw [List.isEmpty_eq_false_iff]
    intro hNone
    rw [Token.scan_of_tokens hNone] at hSpelled
    cases hSpelled
  have hDraft : Draft.ofTokens (Token.scan text).1
      (Token.scan text).2 = .ok phrase.draft :=
    Draft.ofTokens_ok_iff.2 ⟨phrase, hSpelled, rfl⟩
  simp [read, hTokens, hDraft]

theorem read_of_not_spelled
    (hNone : ¬∃ phrase : QueryPhrase, phrase.SpelledBy
      ((Token.scan text).1.map Token.text)) :
    ∃ fault, read text = .error (.parse fault text) := by
  unfold read
  split
  · exact ⟨.noTokens, rfl⟩
  · cases hDraft : Draft.ofTokens (Token.scan text).1
      (Token.scan text).2 with
    | error fault => exact ⟨fault, by simp [hDraft]⟩
    | ok draft =>
        obtain ⟨phrase, hSpelled, -⟩ :=
          Draft.ofTokens_ok_iff.1 hDraft
        exact absurd ⟨phrase, hSpelled⟩ hNone

theorem read_eq_ok_iff
    {query : Select}
    (hSpelled : phrase.SpelledBy
      ((Token.scan text).1.map Token.text)) :
    read text = .ok query ↔
      (∀ part ∈ phrase.parts, part.Valid) ∧
        query = phrase.query := by
  have hCheck (part : Part) :
      part.check text = .ok () ↔ part.Valid := by
    constructor
    · intro hOk
      by_contra hValid
      rw [Part.check_of_not_valid hValid] at hOk
      cases hOk
    · exact Part.check_of_valid
  rw [read_of_spelled hSpelled, QueryPhrase.check_draft,
    Except.then_eq_ok_iff, Except.forM_eq_ok_iff]
  simp only [hCheck, Except.ok.injEq, eq_comm]

/- Whatever is read spells a phrase with valid parts. -/
theorem exists_phrase_of_read
    {query : Select}
    (hRead : read text = .ok query) :
    ∃ phrase : QueryPhrase,
      phrase.SpelledBy ((Token.scan text).1.map Token.text) ∧
        (∀ part ∈ phrase.parts, part.Valid) ∧
        query = phrase.query := by
  have hSpelled : ∃ phrase : QueryPhrase, phrase.SpelledBy
      ((Token.scan text).1.map Token.text) := by
    by_contra hNone
    obtain ⟨fault, hFault⟩ := read_of_not_spelled hNone
    rw [hFault] at hRead
    cases hRead
  obtain ⟨phrase, hSpelled⟩ := hSpelled
  exact ⟨phrase, hSpelled, (read_eq_ok_iff hSpelled).1 hRead⟩

/-
  A text has its tokens in one way, and what is read from it
  is settled by the phrase that they spell.
-/
theorem read_follows_phrase (text : String) :
    ∃ tokens : List String,
      Token.Splits text.toList tokens ∧
      (∀ others, Token.Splits text.toList others →
        others = tokens) ∧
      ((∃ query, read text = .ok query) ↔
        ∃ phrase : QueryPhrase, phrase.SpelledBy tokens ∧
          ∀ part ∈ phrase.parts, part.Valid) ∧
      (∀ (phrase : QueryPhrase) (query : Select),
        phrase.SpelledBy tokens → read text = .ok query →
          phrase.Means query) ∧
      (∀ (phrase : QueryPhrase) (before after : List Part)
          (bad : Part),
        phrase.SpelledBy tokens →
          phrase.parts = before ++ bad :: after →
            (∀ part ∈ before, part.Valid) → ¬bad.Valid →
              read text = .error (bad.fault text)) ∧
      ((¬∃ phrase : QueryPhrase, phrase.SpelledBy tokens) →
        ∃ fault, read text = .error (.parse fault text)) := by
  refine ⟨_, Token.splits_scan_iff.2 rfl,
    fun others => Token.splits_scan_iff.1, ?_, ?_, ?_,
    read_of_not_spelled⟩
  · constructor
    · rintro ⟨query, hRead⟩
      by_contra hNone
      have hSpelled : ∃ phrase : QueryPhrase, phrase.SpelledBy
          ((Token.scan text).1.map Token.text) := by
        by_contra hNot
        obtain ⟨fault, hFault⟩ := read_of_not_spelled hNot
        rw [hFault] at hRead
        cases hRead
      obtain ⟨phrase, hSpelled⟩ := hSpelled
      exact hNone ⟨phrase, hSpelled,
        ((read_eq_ok_iff hSpelled).1 hRead).1⟩
    · rintro ⟨phrase, hSpelled, hValid⟩
      exact ⟨phrase.query,
        (read_eq_ok_iff hSpelled).2 ⟨hValid, rfl⟩⟩
  · intro phrase query hSpelled hRead
    obtain ⟨hValid, rfl⟩ := (read_eq_ok_iff hSpelled).1 hRead
    exact QueryPhrase.means_query hValid
  · intro phrase before after bad hSpelled hParts hBefore hBad
    rw [read_of_spelled hSpelled, QueryPhrase.check_draft,
      hParts, Except.forM_eq_error
        (fun part hPart =>
          Part.check_of_valid (hBefore part hPart))
        (Part.check_of_not_valid hBad)]
    rfl

/- Where a name has to come, a key word is a name. -/
example :
    ((read "select and,By from WHERE where order LIKE @by"
      ).toOption.map Select.columns) = some ["and", "By"] := by
  decide +kernel

end Select

end SparseTables
