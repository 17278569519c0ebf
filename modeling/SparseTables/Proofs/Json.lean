import SparseTables.Json.Codec
import SparseTables.Json.Reader
import SparseTables.Proofs.Loops
import SparseTables.Proofs.NameMap
import SparseTables.Proofs.Number

/-
  This file shows that queries, requests and responses come
  back from the documents that they are written as, and that
  a document that is read is written as one that is read as
  the same value.

  Each kind of value travels by a pair of functions with two
  laws.  Lists, maps and optional values keep the laws of what
  they hold, so those of a record follow from those of its
  fields.

  Main declarations:
    * `Json.Valid`
    * `Json.valid_of_read?`
    * `Json.Denotes`
    * `Json.Travels`
    * `Json.Travels.list`
    * `Json.Travels.optional`
    * `NameMap.travels`
    * `Json.RoundTrips`
    * `Json.exchanges_round_trip`
-/

namespace SparseTables

namespace Json

------------------------------------------------------------
-- Documents
------------------------------------------------------------

/-
  The integers fit 64 bits, signed or unsigned, and the
  other numbers are finite.
-/
inductive Valid : Json → Prop where
  | null : Valid .null
  | bool (b : Bool) : Valid (.bool b)
  | integer
      {i : Int}
      (hLeast : -Bounds.signed64 ≤ i)
      (hMost : i < Bounds.word64) :
      Valid (.integer i)
  | real
      {x : Number}
      (hFinite : x.isFinite = true) :
      Valid (.real x)
  | string (s : String) : Valid (.string s)
  | array
      {items : List Json}
      (hItems : ∀ item ∈ items, Valid item) :
      Valid (.array items)
  | object
      {members : List (String × Json)}
      (hMembers : ∀ member ∈ members, Valid member.2) :
      Valid (.object members)

theorem Literal.valid_of_toJson?
    {literal : Literal}
    {json : Json}
    (hRead : literal.toJson? = some json) :
    json.Valid := by
  unfold toJson? at hRead
  dsimp only at hRead
  split at hRead
  · rename_i hWord
    cases hRead
    simp only [Bool.and_eq_true, decide_eq_true_eq] at hWord
    refine .integer ?_ (Int.ofNat_lt.2 hWord.2)
    unfold Bounds.signed64
    omega
  · split at hRead
    · rename_i hSigned
      cases hRead
      simp only [Bool.and_eq_true, decide_eq_true_eq] at hSigned
      refine .integer (Int.neg_le_neg hSigned.2.2) ?_
      unfold Bounds.word64
      omega
    · split at hRead
      · rename_i hFinite
        cases hRead
        exact .real hFinite
      · cases hRead

theorem Literal.valid_of_bind
    {literal : Literal}
    {refused : Prop}
    [Decidable refused]
    {left rest : List Char}
    {json : Json}
    (hRead : (if refused then none
      else literal.toJson?.bind fun json => some (json, left)) =
        some (json, rest)) :
    json.Valid := by
  split at hRead
  · cases hRead
  · rcases Option.bind_eq_some_iff.1 hRead with
      ⟨found, hFound, hPair⟩
    cases hPair
    exact valid_of_toJson? hFound

theorem valid_of_number?
    {cs rest : List Char}
    {json : Json}
    (hRead : number? cs = some (json, rest)) :
    json.Valid := by
  rcases Option.bind_eq_some_iff.1 hRead with
    ⟨whole, -, hRead⟩
  -- With a point and places, and without them.
  dsimp only at hRead
  split at hRead
  · rcases Option.bind_eq_some_iff.1 hRead with
      ⟨places, -, hRead⟩
    rcases Option.bind_eq_some_iff.1 hRead with
      ⟨parts, -, hRead⟩
    rcases Option.bind_eq_some_iff.1 hRead with
      ⟨exponent, -, hRead⟩
    exact Literal.valid_of_bind hRead
  · rcases Option.bind_eq_some_iff.1 hRead with
      ⟨parts, -, hRead⟩
    rcases Option.bind_eq_some_iff.1 hRead with
      ⟨exponent, -, hRead⟩
    exact Literal.valid_of_bind hRead

theorem valid_of_word?
    {word : String}
    {value json : Json}
    {cs rest : List Char}
    (hValue : value.Valid)
    (hRead : word? word value cs = some (json, rest)) :
    json.Valid := by
  unfold word? at hRead
  split at hRead
  · cases hRead
    exact hValue
  · cases hRead

/- What was read before is valid. -/
def Goal.Valid : Goal → Prop
  | .value => True
  | .items read => ∀ item ∈ read, item.Valid
  | .members read => ∀ member ∈ read, member.2.Valid

theorem Goal.valid_value : Goal.value.Valid :=
  trivial

/- By the steps; a part is read before its container. -/
theorem valid_of_readFrom
    {steps : Nat}
    {goal : Goal}
    {cs rest : List Char}
    {json : Json}
    (hGoal : goal.Valid)
    (hRead : readFrom steps goal cs = some (json, rest)) :
    json.Valid := by
  induction steps generalizing goal cs rest json with
  | zero => cases hRead
  | succ steps ih =>
      cases goal with
      | value =>
          simp only [readFrom] at hRead
          split at hRead
          · split at hRead
            · cases hRead
              exact .object (by simp)
            · exact ih (by simp [Goal.Valid]) hRead
          · split at hRead
            · cases hRead
              exact .array (by simp)
            · exact ih (by simp [Goal.Valid]) hRead
          · rcases Option.bind_eq_some_iff.1 hRead with
              ⟨found, -, hPair⟩
            cases hPair
            exact .string _
          · exact valid_of_word? .null hRead
          · exact valid_of_word? (.bool true) hRead
          · exact valid_of_word? (.bool false) hRead
          · exact valid_of_number? hRead
      | items read =>
          simp only [readFrom] at hRead
          rcases Option.bind_eq_some_iff.1 hRead with
            ⟨⟨item, left⟩, hItem, hRead⟩
          have hItems : ∀ other ∈ item :: read, other.Valid :=
            List.forall_mem_cons.2
              ⟨ih Goal.valid_value hItem, hGoal⟩
          dsimp only at hRead
          split at hRead
          · exact ih (show Goal.Valid (.items _) from hItems)
              hRead
          · cases hRead
            exact .array fun other hOther =>
              hItems other (List.mem_reverse.1 hOther)
          · cases hRead
      | members read =>
          simp only [readFrom] at hRead
          split at hRead
          · rcases Option.bind_eq_some_iff.1 hRead with
              ⟨⟨name, left⟩, -, hRead⟩
            dsimp only at hRead
            split at hRead
            · rcases Option.bind_eq_some_iff.1 hRead with
                ⟨⟨value, left⟩, hValue, hRead⟩
              have hMembers :
                  ∀ member ∈ (name, value) :: read,
                    member.2.Valid :=
                List.forall_mem_cons.2
                  ⟨ih Goal.valid_value hValue, hGoal⟩
              dsimp only at hRead
              split at hRead
              · exact ih
                  (show Goal.Valid (.members _) from hMembers)
                  hRead
              · cases hRead
                exact .object fun member hMember =>
                  hMembers member (List.mem_reverse.1 hMember)
              · cases hRead
            · cases hRead
          · cases hRead

/- A document that is read from a text is valid. -/
theorem valid_of_read?
    {text : String}
    {json : Json}
    (hRead : read? text = some json) :
    json.Valid := by
  rcases Option.bind_eq_some_iff.1 hRead with
    ⟨⟨found, rest⟩, hFound, hRead⟩
  dsimp only at hRead
  split at hRead
  · cases hRead
    exact valid_of_readFrom Goal.valid_value hFound
  · cases hRead

------------------------------------------------------------
-- Laws of reading and writing
------------------------------------------------------------

/- A valid document that is read as a value. -/
structure Denotes
    {α : Type}
    (json : Json)
    (ofJson? : Json → Option α)
    (value : α) : Prop where
  valid : json.Valid
  read : ofJson? json = some value

/-
  Values that fit are written as documents that denote them,
  and no others are denoted by documents.
-/
structure Travels
    {α : Type}
    (toJson : α → Json)
    (ofJson? : Json → Option α)
    (Fits : α → Prop) : Prop where
  written {value : α} (hFits : Fits value) :
    Denotes (toJson value) ofJson? value
  fits
    {json : Json}
    {value : α}
    (hDenotes : Denotes json ofJson? value) :
    Fits value

theorem travels_string :
    Travels Json.string string? fun _ => True where
  written _ := ⟨.string _, rfl⟩
  fits _ := trivial

theorem travels_natural :
    Travels (fun count : Nat => .integer count) natural?
      fun count => count < Bounds.word64 where
  written {count} hFits := by
    have hMost : (count : Int) < Bounds.word64 :=
      Int.ofNat_lt.2 hFits
    constructor
    · refine .integer ?_ hMost
      unfold Bounds.signed64
      omega
    · rw [natural?, if_pos ⟨Int.natCast_nonneg count, hMost⟩,
        Int.toNat_natCast]
  fits {json count} hDenotes := by
    rcases hDenotes with ⟨-, hRead⟩
    cases json with
    | integer i =>
        rw [natural?] at hRead
        split at hRead
        · cases hRead
          omega
        · cases hRead
    | _ => cases hRead

------------------------------------------------------------
-- Lists and optional values
------------------------------------------------------------

section Containers

variable {α : Type} {toJson : α → Json}
variable {ofJson? : Json → Option α} {Fits : α → Prop}

theorem Travels.list (hTravels : Travels toJson ofJson? Fits) :
    Travels (fun values => .array (values.map toJson))
      (list? ofJson?) fun values =>
        ∀ value ∈ values, Fits value where
  written {values} hFits := by
    constructor
    · exact .array (List.forall_mem_map.2 fun value hValue =>
        (hTravels.written (hFits value hValue)).valid)
    · rw [list?, Option.mapM_map_eq toJson id fun value hValue =>
        (hTravels.written (hFits value hValue)).read,
        List.map_id]
  fits {json values} hDenotes := by
    rcases hDenotes with ⟨hValid, hRead⟩
    cases hValid with
    | array hItems =>
        intro value hValue
        rcases Option.exists_of_mapM_eq_some hRead value hValue
          with ⟨item, hItem, hSame⟩
        exact hTravels.fits ⟨hItems item hItem, hSame⟩
    | _ => cases hRead

/- Null stands for no value if it is read as none. -/
theorem Travels.optional
    (hTravels : Travels toJson ofJson? Fits)
    (hNull : ofJson? .null = none)
    {write : Option α → Json}
    {read? : Json → Option (Option α)}
    (hWriteSome : ∀ value, write (some value) = toJson value)
    (hWriteNone : write none = .null)
    (hReadNull : read? .null = some none)
    (hReadOther : ∀ json, json ≠ .null →
      read? json = (ofJson? json).map some) :
    Travels write read? fun value? =>
      ∀ value ∈ value?, Fits value where
  written {value?} hFits := by
    cases value? with
    | none =>
        rw [hWriteNone]
        exact ⟨.null, hReadNull⟩
    | some value =>
        have hDenotes := hTravels.written (hFits value rfl)
        have hOther : toJson value ≠ .null := by
          intro hEq
          have hRead := hDenotes.read
          rw [hEq, hNull] at hRead
          cases hRead
        rw [hWriteSome]
        refine ⟨hDenotes.valid, ?_⟩
        rw [hReadOther _ hOther, hDenotes.read, Option.map_some]
  fits {json value?} hDenotes := by
    rcases hDenotes with ⟨hValid, hRead⟩
    by_cases hEq : json = .null
    · rw [hEq, hReadNull] at hRead
      cases hRead
      simp
    · rw [hReadOther _ hEq, Option.map_eq_some_iff] at hRead
      rcases hRead with ⟨value, hValue, rfl⟩
      intro other hOther
      cases hOther
      exact hTravels.fits ⟨hValid, hValue⟩

end Containers

end Json

------------------------------------------------------------
-- Maps
------------------------------------------------------------

theorem NameMap.travels
    {α : Type}
    {toJson : α → Json}
    {ofJson? : Json → Option α}
    {Fits : α → Prop}
    (hTravels : Json.Travels toJson ofJson? Fits) :
    Json.Travels (NameMap.toJson toJson)
      (NameMap.ofJson? ofJson?) fun map =>
        ∀ entry ∈ map.entries, Fits entry.2 where
  written {map} hFits := by
    constructor
    · exact .object (List.forall_mem_map.2 fun entry hEntry =>
        (hTravels.written (hFits entry hEntry)).valid)
    · rw [NameMap.toJson, NameMap.ofJson?,
        Option.mapM_map_eq _ id, List.map_id,
        Option.map_some, ofList_entries]
      intro entry hEntry
      rw [(hTravels.written (hFits entry hEntry)).read]
      rfl
  fits {json map} hDenotes := by
    rcases hDenotes with ⟨hValid, hRead⟩
    cases hValid with
    | object hMembers =>
        rcases Option.map_eq_some_iff.1 hRead with
          ⟨entries, hEntries, rfl⟩
        intro entry hEntry
        rcases Option.exists_of_mapM_eq_some hEntries entry
          (mem_of_mem_ofList hEntry) with
            ⟨member, hMember, hSame⟩
        rcases Option.map_eq_some_iff.1 hSame with
          ⟨value, hValue, rfl⟩
        exact hTravels.fits ⟨hMembers member hMember, hValue⟩
    | _ => cases hRead

------------------------------------------------------------
-- Scalars
------------------------------------------------------------

namespace Scalar

/- The number of a scalar is finite. -/
def isFinite : Scalar → Bool
  | number x => x.isFinite
  | text _ => true

theorem toJson_number
    {x : Number}
    (hFinite : x.isFinite = true) :
    (number x).toJson = .real x :=
  if_pos hFinite

theorem travels :
    Json.Travels toJson ofJson? fun value =>
      value.isFinite = true where
  written {value} hFinite := by
    cases value with
    | number x =>
        rw [toJson_number hFinite]
        exact ⟨.real hFinite, rfl⟩
    | text s => exact ⟨.string s, rfl⟩
  fits {json value} hDenotes := by
    rcases hDenotes with ⟨hValid, hRead⟩
    cases hValid with
    | integer hLeast hMost =>
        cases hRead
        apply Number.isFinite_ofInt
        unfold Bounds.signed64 Bounds.word64 at *
        omega
    | real hFinite =>
        cases hRead
        exact hFinite
    | string s =>
        cases hRead
        rfl
    | _ => cases hRead

theorem travels_option :
    Json.Travels optionToJson optionOfJson? fun value? =>
      ∀ value ∈ value?, value.isFinite = true :=
  travels.optional rfl (fun _ => rfl) rfl rfl
    fun json hOther => by
      cases json <;> first | rfl | contradiction

end Scalar

------------------------------------------------------------
-- Parts of a query
------------------------------------------------------------

namespace Json

/- The fields of a valid document are valid. -/
theorem valid_of_fields?
    {names : List String}
    {json : Json}
    {fields : List Json}
    (hValid : json.Valid)
    (hFields : json.fields? names = some fields) :
    ∀ field ∈ fields, field.Valid := by
  cases hValid with
  | array hItems =>
      rw [fields?] at hFields
      split at hFields
      · cases hFields
        exact hItems
      · cases hFields
  | object hMembers =>
      intro field hField
      rcases Option.exists_of_mapM_eq_some hFields field hField
        with ⟨name, -, hLast⟩
      rcases List.lookup_eq_some_iff.1 hLast with
        ⟨before, after, hSplit, -⟩
      have hMem : (name, field) ∈ before ++
          (name, field) :: after := by
        simp
      rw [← hSplit, List.mem_reverse] at hMem
      exact hMembers _ hMem
  | _ => cases hFields

end Json

theorem Criterion.travels :
    Json.Travels toJson ofJson? fun _ => True where
  written _ := ⟨.object (by simp [Json.Valid.string]), rfl⟩
  fits _ := trivial

theorem Combine.travels :
    Json.Travels toJson ofJson? fun _ => True where
  written {combine} _ :=
    ⟨.string _, by cases combine <;> rfl⟩
  fits _ := trivial

theorem Group.travels :
    Json.Travels toJson ofJson? fun _ => True where
  written {group} _ := by
    have hFields : group.toJson.fields? ["combine", "criteria"] =
        some
          [group.combine.toJson,
            .array (group.criteria.map Criterion.toJson)] :=
      rfl
    have hCombine : Json.Denotes group.combine.toJson
        Combine.ofJson? group.combine :=
      Combine.travels.written trivial
    have hCriteria : Json.Denotes
        (.array (group.criteria.map Criterion.toJson))
        (Json.list? Criterion.ofJson?) group.criteria :=
      Criterion.travels.list.written fun _ _ => trivial
    constructor
    · exact .object (by
        simp [hCombine.valid, hCriteria.valid])
    · rw [ofJson?, hFields]
      simp only [hCombine.read, hCriteria.read]
      rfl
  fits _ := trivial

theorem Order.travels :
    Json.Travels toJson ofJson? fun _ => True where
  written _ :=
    ⟨.object (by
      simp [Json.Valid.string, Json.Valid.bool]), rfl⟩
  fits _ := trivial

------------------------------------------------------------
-- Queries
------------------------------------------------------------

namespace Select

/- The limit has 64 bits, and the parameters are finite. -/
def IsFinite (query : Select) : Prop :=
  query.limit < Bounds.word64 ∧
    ∀ entry ∈ query.params.entries, entry.2.isFinite = true

theorem written
    {query : Select}
    (hFinite : query.IsFinite) :
    Json.Denotes query.toJson ofJson? query := by
  have hFields : query.toJson.fields?
      ["select", "from", "where", "order_by", "limit",
        "params"] =
      some
        [.array (query.columns.map Json.string),
          .string query.source,
          .array (query.groups.map Group.toJson),
          .array (query.orders.map Order.toJson),
          .integer query.limit,
          query.params.toJson Scalar.toJson] :=
    rfl
  have hColumns : Json.Denotes
      (.array (query.columns.map Json.string))
      (Json.list? Json.string?) query.columns :=
    Json.travels_string.list.written fun _ _ => trivial
  have hGroups : Json.Denotes
      (.array (query.groups.map Group.toJson))
      (Json.list? Group.ofJson?) query.groups :=
    Group.travels.list.written fun _ _ => trivial
  have hOrders : Json.Denotes
      (.array (query.orders.map Order.toJson))
      (Json.list? Order.ofJson?) query.orders :=
    Order.travels.list.written fun _ _ => trivial
  have hLimit : Json.Denotes (.integer query.limit)
      Json.natural? query.limit :=
    Json.travels_natural.written hFinite.1
  have hParams : Json.Denotes
      (query.params.toJson Scalar.toJson)
      (NameMap.ofJson? Scalar.ofJson?) query.params :=
    (NameMap.travels Scalar.travels).written hFinite.2
  constructor
  · exact .object (by
      simp [hColumns.valid, Json.Valid.string, hGroups.valid,
        hOrders.valid, hLimit.valid, hParams.valid])
  · rw [ofJson?, hFields]
    simp only [hColumns.read, hGroups.read, hOrders.read,
      hLimit.read, hParams.read]
    rfl

theorem isFinite_of_denotes
    {json : Json}
    {query : Select}
    (hDenotes : Json.Denotes json ofJson? query) :
    query.IsFinite := by
  rcases hDenotes with ⟨hValid, hRead⟩
  unfold ofJson? at hRead
  split at hRead
  · rename_i hFields
    have hParts := Json.valid_of_fields? hValid hFields
    simp only [List.forall_mem_cons] at hParts
    rcases hParts with ⟨-, -, -, -, hLimit, hParams, -⟩
    simp only [Option.bind_eq_bind,
      Option.bind_eq_some_iff] at hRead
    rcases hRead with
      ⟨columns, -, source, -, groups, -, orders, -,
        limit, hCount, params, hMap, hQuery⟩
    cases hQuery
    exact ⟨Json.travels_natural.fits ⟨hLimit, hCount⟩,
      (NameMap.travels Scalar.travels).fits ⟨hParams, hMap⟩⟩
  · cases hRead

theorem travels : Json.Travels toJson ofJson? IsFinite :=
  ⟨written, isFinite_of_denotes⟩

end Select

------------------------------------------------------------
-- Requests
------------------------------------------------------------

namespace Define

/- The key and the entries are finite. -/
def IsFinite (request : Define) : Prop :=
  request.key.isFinite = true ∧
    ∀ entry ∈ request.entries, ∀ value ∈ entry.2,
      value.isFinite = true

theorem travels_entry :
    Json.Travels entryToJson entryOfJson? fun entry =>
      ∀ value ∈ entry.2, value.isFinite = true where
  written {entry} hFinite := by
    have hValue := Scalar.travels_option.written hFinite
    constructor
    · exact .array (by simp [Json.Valid.string, hValue.valid])
    · simp only [entryToJson, entryOfJson?, Json.string?,
        hValue.read]
      rfl
  fits {json entry} hDenotes := by
    rcases hDenotes with ⟨hValid, hRead⟩
    unfold entryOfJson? at hRead
    split at hRead
    · cases hValid with
      | array hItems =>
          simp only [Option.bind_eq_bind,
            Option.bind_eq_some_iff] at hRead
          rcases hRead with ⟨name, -, value, hValue, hEntry⟩
          cases hEntry
          exact Scalar.travels_option.fits
            ⟨hItems _ (by simp), hValue⟩
    · cases hRead

theorem written
    {request : Define}
    (hFinite : request.IsFinite) :
    Json.Denotes request.toJson ofJson? request := by
  have hFields : request.toJson.fields?
      ["table", "key", "metadata"] =
      some
        [.string request.table, request.key.toJson,
          .array (request.entries.map entryToJson)] :=
    rfl
  have hKey : Json.Denotes request.key.toJson
      Scalar.ofJson? request.key :=
    Scalar.travels.written hFinite.1
  have hEntries : Json.Denotes
      (.array (request.entries.map entryToJson))
      (Json.list? entryOfJson?) request.entries :=
    travels_entry.list.written hFinite.2
  constructor
  · exact .object (by
      simp [Json.Valid.string, hKey.valid, hEntries.valid])
  · rw [ofJson?, hFields]
    simp only [hKey.read, hEntries.read]
    rfl

theorem isFinite_of_denotes
    {json : Json}
    {request : Define}
    (hDenotes : Json.Denotes json ofJson? request) :
    request.IsFinite := by
  rcases hDenotes with ⟨hValid, hRead⟩
  unfold ofJson? at hRead
  split at hRead
  · rename_i hFields
    have hParts := Json.valid_of_fields? hValid hFields
    simp only [List.forall_mem_cons] at hParts
    rcases hParts with ⟨-, hKey, hEntries, -⟩
    simp only [Option.bind_eq_bind,
      Option.bind_eq_some_iff] at hRead
    rcases hRead with
      ⟨table, -, key, hScalar, entries, hList, hRequest⟩
    cases hRequest
    exact ⟨Scalar.travels.fits ⟨hKey, hScalar⟩,
      travels_entry.list.fits ⟨hEntries, hList⟩⟩
  · cases hRead

theorem travels : Json.Travels toJson ofJson? IsFinite :=
  ⟨written, isFinite_of_denotes⟩

end Define

namespace GetRequest

/- The keys are finite. -/
def IsFinite (request : GetRequest) : Prop :=
  ∀ key ∈ request.keys, key.isFinite = true

theorem travels : Json.Travels toJson ofJson? IsFinite where
  written {request} hFinite := by
    have hFields : request.toJson.fields? ["table", "values"] =
        some
          [.string request.table,
            .array (request.keys.map Scalar.toJson)] :=
      rfl
    have hKeys : Json.Denotes
        (.array (request.keys.map Scalar.toJson))
        (Json.list? Scalar.ofJson?) request.keys :=
      Scalar.travels.list.written hFinite
    constructor
    · exact .object (by simp [Json.Valid.string, hKeys.valid])
    · rw [ofJson?, hFields]
      simp only [hKeys.read]
      rfl
  fits {json request} hDenotes := by
    rcases hDenotes with ⟨hValid, hRead⟩
    unfold ofJson? at hRead
    split at hRead
    · rename_i hFields
      have hParts := Json.valid_of_fields? hValid hFields
      simp only [List.forall_mem_cons] at hParts
      rcases hParts with ⟨-, hKeys, -⟩
      simp only [Option.bind_eq_bind,
        Option.bind_eq_some_iff] at hRead
      rcases hRead with ⟨table, -, keys, hList, hRequest⟩
      cases hRequest
      exact Scalar.travels.list.fits ⟨hKeys, hList⟩
    · cases hRead

end GetRequest

------------------------------------------------------------
-- Responses
------------------------------------------------------------

namespace GetResponse

/- The attributes are finite. -/
def IsFinite (response : GetResponse) : Prop :=
  ∀ item ∈ response.items, ∀ metadata ∈ item,
    ∀ entry ∈ NameMap.entries metadata,
      entry.2.isFinite = true

theorem travels_item :
    Json.Travels itemToJson itemOfJson? fun item =>
      ∀ metadata ∈ item,
        ∀ entry ∈ NameMap.entries metadata,
          entry.2.isFinite = true :=
  (NameMap.travels Scalar.travels).optional rfl
    (fun _ => rfl) rfl rfl fun json hOther => by
      cases json <;> first | rfl | contradiction

theorem travels : Json.Travels toJson ofJson? IsFinite where
  written {response} hFinite := by
    have hFields : response.toJson.fields? ["metadata"] =
        some [.array (response.items.map itemToJson)] :=
      rfl
    have hItems : Json.Denotes
        (.array (response.items.map itemToJson))
        (Json.list? itemOfJson?) response.items :=
      travels_item.list.written hFinite
    constructor
    · exact .object (by simp [hItems.valid])
    · rw [ofJson?, hFields]
      simp only [hItems.read, Option.map_some]
  fits {json response} hDenotes := by
    rcases hDenotes with ⟨hValid, hRead⟩
    unfold ofJson? at hRead
    split at hRead
    · rename_i hFields
      have hParts := Json.valid_of_fields? hValid hFields
      rcases Option.map_eq_some_iff.1 hRead with
        ⟨items, hList, rfl⟩
      exact travels_item.list.fits
        ⟨hParts _ List.mem_cons_self, hList⟩
    · cases hRead

end GetResponse

theorem SchemaResponse.travels :
    Json.Travels toJson ofJson? fun _ => True where
  written {response} _ := by
    have hFields : response.toJson.fields? ["tables"] =
        some [response.tables.toJson namesToJson] :=
      rfl
    have hTables : Json.Denotes
        (response.tables.toJson namesToJson)
        (NameMap.ofJson? (Json.list? Json.string?))
        response.tables :=
      (NameMap.travels Json.travels_string.list).written
        fun _ _ _ _ => trivial
    constructor
    · exact .object (by simp [hTables.valid])
    · rw [ofJson?, hFields]
      simp only [hTables.read, Option.map_some]
  fits _ := trivial

------------------------------------------------------------
-- All exchanges
------------------------------------------------------------

namespace Json

/-
  A value that fits is written as a document that denotes it.
  So is the value that any document denotes.
-/
def RoundTrips
    {α : Type}
    (toJson : α → Json)
    (ofJson? : Json → Option α)
    (Fits : α → Prop) : Prop :=
  (∀ value, Fits value →
    Denotes (toJson value) ofJson? value) ∧
  ∀ json value, Denotes json ofJson? value →
    Denotes (toJson value) ofJson? value

theorem Travels.roundTrips
    {α : Type}
    {toJson : α → Json}
    {ofJson? : Json → Option α}
    {Fits : α → Prop}
    (hTravels : Travels toJson ofJson? Fits) :
    RoundTrips toJson ofJson? Fits :=
  ⟨fun _ hFits => hTravels.written hFits,
    fun _ _ hDenotes =>
      hTravels.written (hTravels.fits hDenotes)⟩

/-
  Queries, requests and responses without infinite numbers
  come back from their documents as they were, and every
  document that is accepted as one of them is written as one
  that denotes the same.  All documents that are read from
  texts are valid.
-/
theorem exchanges_round_trip :
    RoundTrips Select.toJson Select.ofJson? Select.IsFinite ∧
    RoundTrips Define.toJson Define.ofJson? Define.IsFinite ∧
    RoundTrips GetRequest.toJson GetRequest.ofJson?
      GetRequest.IsFinite ∧
    RoundTrips GetResponse.toJson GetResponse.ofJson?
      GetResponse.IsFinite ∧
    RoundTrips SchemaResponse.toJson SchemaResponse.ofJson?
      (fun _ => True) ∧
    ∀ text json, read? text = some json → json.Valid :=
  ⟨Select.travels.roundTrips, Define.travels.roundTrips,
    GetRequest.travels.roundTrips,
    GetResponse.travels.roundTrips,
    SchemaResponse.travels.roundTrips,
    fun _ _ => valid_of_read?⟩

/- A query with a number, and a text that looks like one. -/
def queried : Select where
  columns := ["value"]
  source := "blet"
  groups := [⟨.any, [⟨"monkey", "=", "@something"⟩]⟩]
  orders := [⟨"value", true⟩]
  limit := 3
  params := .ofList
    [("@something", .text "7"), ("@other", .number .zero)]

/-
  A record from an array, its key from an integer; null
  erases, and the text stays one.
-/
def requested : Json :=
  .array
    [.string "t", .integer 7,
      .array
        [.array [.string "a", .null],
          .array [.string "b", .string "7"]]]

theorem exchanges_round_trip_numeric :
    Select.ofJson? queried.toJson = some queried ∧
      ∃ request, Define.ofJson? requested = some request ∧
        request.entries =
          [("a", none), ("b", some (.text "7"))] ∧
        Define.ofJson? request.toJson = some request := by
  rcases exchanges_round_trip with
    ⟨hSelect, hDefine, -, -, -, hTexts⟩
  have hFinite : queried.IsFinite := by
    constructor <;> decide +kernel
  have hRead : read?
      "[\"t\", 7, [[\"a\", null], [\"b\", \"7\"]]]" =
        some requested := by
    rfl
  refine ⟨(hSelect.1 queried hFinite).read,
    ⟨"t", .ofInt 7, [("a", none), ("b", some (.text "7"))]⟩,
    rfl, rfl, ?_⟩
  exact (hDefine.2 requested _ ⟨hTexts _ _ hRead, rfl⟩).read

end Json

end SparseTables
