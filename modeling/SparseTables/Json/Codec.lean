import SparseTables.Exchange
import SparseTables.Json.Basic
import SparseTables.Query.Basic

/-
  This file defines the documents in which scalars, queries,
  requests and responses travel, one pair of functions each.

  A record is read from an object with at least its fields,
  or from an array of exactly its fields; it is written as an
  object.

  Key definitions include:
    * `Scalar.toJson`, `Scalar.ofJson?`
    * `Select.toJson`, `Select.ofJson?`
    * `Define.toJson`, `Define.ofJson?`
    * `GetRequest.toJson`, `GetRequest.ofJson?`
    * `GetResponse.toJson`, `GetResponse.ofJson?`
    * `SchemaResponse.toJson`, `SchemaResponse.ofJson?`
-/

namespace SparseTables

------------------------------------------------------------
-- Scalars and maps
------------------------------------------------------------

namespace Scalar

/- JSON has no number for infinities and NaN. -/
def toJson : Scalar → Json
  | number x => if x.isFinite then .real x else .null
  | text s => .string s

def ofJson? : Json → Option Scalar
  | .integer i => some (ofInt i)
  | .real x => some (number x)
  | .string s => some (text s)
  | _ => none

/- A scalar, or null where there is none. -/
def optionToJson : Option Scalar → Json
  | some value => value.toJson
  | none => .null

def optionOfJson? : Json → Option (Option Scalar)
  | .null => some none
  | json => (ofJson? json).map some

end Scalar

namespace NameMap

variable {α : Type}

def toJson (value : α → Json) (map : NameMap α) : Json :=
  .object (map.entries.map fun entry =>
    (entry.1, value entry.2))

def ofJson?
    (value? : Json → Option α) : Json → Option (NameMap α)
  | .object members =>
      (members.mapM fun member =>
        (value? member.2).map fun value =>
          (member.1, value)).map ofList
  | _ => none

end NameMap

------------------------------------------------------------
-- Queries
------------------------------------------------------------

namespace Criterion

def toJson (part : Criterion) : Json :=
  .object
    [("name", .string part.name),
      ("op", .string part.op),
      ("param_name", .string part.param)]

def ofJson? (json : Json) : Option Criterion :=
  match json.fields? ["name", "op", "param_name"] with
  | some [name, op, param] => do
      pure
        { name := ← name.string?
          op := ← op.string?
          param := ← param.string? }
  | _ => none

end Criterion

namespace Combine

def name : Combine → String
  | all => "And"
  | any => "Or"

def ofName? (name : String) : Option Combine :=
  if name == "And" then some all
  else if name == "Or" then some any
  else none

def toJson (combine : Combine) : Json :=
  .string combine.name

/- The name, or an object with null under the name. -/
def ofJson? : Json → Option Combine
  | .string name => ofName? name
  | .object [(name, .null)] => ofName? name
  | _ => none

end Combine

namespace Group

def toJson (group : Group) : Json :=
  .object
    [("combine", group.combine.toJson),
      ("criteria", .array (group.criteria.map Criterion.toJson))]

def ofJson? (json : Json) : Option Group :=
  match json.fields? ["combine", "criteria"] with
  | some [combine, criteria] => do
      pure
        { combine := ← Combine.ofJson? combine
          criteria := ← criteria.list? Criterion.ofJson? }
  | _ => none

end Group

namespace Order

def toJson (order : Order) : Json :=
  .object
    [("field", .string order.field),
      ("descending", .bool order.descending)]

def ofJson? (json : Json) : Option Order :=
  match json.fields? ["field", "descending"] with
  | some [field, descending] => do
      pure
        { field := ← field.string?
          descending := ← descending.bool? }
  | _ => none

end Order

namespace Select

def toJson (query : Select) : Json :=
  .object
    [("select", .array (query.columns.map Json.string)),
      ("from", .string query.source),
      ("where", .array (query.groups.map Group.toJson)),
      ("order_by", .array (query.orders.map Order.toJson)),
      ("limit", .integer query.limit),
      ("params", query.params.toJson Scalar.toJson)]

def ofJson? (json : Json) : Option Select :=
  match json.fields?
      ["select", "from", "where", "order_by", "limit",
        "params"] with
  | some [columns, source, groups, orders, limit, params] => do
      pure
        { columns := ← columns.list? Json.string?
          source := ← source.string?
          groups := ← groups.list? Group.ofJson?
          orders := ← orders.list? Order.ofJson?
          limit := ← limit.natural?
          params := ← NameMap.ofJson? Scalar.ofJson? params }
  | _ => none

end Select

------------------------------------------------------------
-- Requests and responses
------------------------------------------------------------

namespace Define

/- One entry is an array of its name and its scalar. -/
def entryToJson (entry : String × Option Scalar) : Json :=
  .array [.string entry.1, Scalar.optionToJson entry.2]

def entryOfJson? : Json → Option (String × Option Scalar)
  | .array [name, value] => do
      pure (← name.string?, ← Scalar.optionOfJson? value)
  | _ => none

def toJson (request : Define) : Json :=
  .object
    [("table", .string request.table),
      ("key", request.key.toJson),
      ("metadata", .array (request.entries.map entryToJson))]

def ofJson? (json : Json) : Option Define :=
  match json.fields? ["table", "key", "metadata"] with
  | some [table, key, entries] => do
      pure
        { table := ← table.string?
          key := ← Scalar.ofJson? key
          entries := ← entries.list? entryOfJson? }
  | _ => none

end Define

namespace GetRequest

def toJson (request : GetRequest) : Json :=
  .object
    [("table", .string request.table),
      ("values", .array (request.keys.map Scalar.toJson))]

def ofJson? (json : Json) : Option GetRequest :=
  match json.fields? ["table", "values"] with
  | some [table, keys] => do
      pure
        { table := ← table.string?
          keys := ← keys.list? Scalar.ofJson? }
  | _ => none

end GetRequest

namespace GetResponse

/- The attributes of an item, or null without an item. -/
def itemToJson : Option Metadata → Json
  | some metadata => metadata.toJson Scalar.toJson
  | none => .null

def itemOfJson? : Json → Option (Option Metadata)
  | .null => some none
  | json => (NameMap.ofJson? Scalar.ofJson? json).map some

def toJson (response : GetResponse) : Json :=
  .object [("metadata", .array (response.items.map itemToJson))]

def ofJson? (json : Json) : Option GetResponse :=
  match json.fields? ["metadata"] with
  | some [items] => (items.list? itemOfJson?).map GetResponse.mk
  | _ => none

end GetResponse

namespace SchemaResponse

def namesToJson (names : List String) : Json :=
  .array (names.map Json.string)

def toJson (response : SchemaResponse) : Json :=
  .object [("tables", response.tables.toJson namesToJson)]

def ofJson? (json : Json) : Option SchemaResponse :=
  match json.fields? ["tables"] with
  | some [tables] =>
      (NameMap.ofJson? (Json.list? Json.string?) tables).map
        SchemaResponse.mk
  | _ => none

end SchemaResponse

end SparseTables
