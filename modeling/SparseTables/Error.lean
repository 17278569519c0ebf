import SparseTables.Cell
import SparseTables.Timestamp
import SparseTables.Query.Stage

/-
  This file defines the errors of the library by their
  causes, and the text of each.

  Key definitions include:
    * `ParseFault`
    * `ValidationFault`
    * `StoreFault`
    * `Error`
    * `Error.message`
    * `Error.isRetryable`
-/

namespace SparseTables

------------------------------------------------------------
-- Query text
------------------------------------------------------------

/- Why a text is no query. -/
inductive ParseFault where
  | noTokens
  | unexpected (stage : Stage) (position : Position)
  | limitValue
  | other (text : String)
deriving DecidableEq

namespace ParseFault

def reason : ParseFault → String
  | noTokens => "No tokens"
  | unexpected stage _ => "expected " ++ stage.expects
  | limitValue => "Invalid LIMIT value"
  | other text => text

def position? : ParseFault → Option Position
  | unexpected _ position => some position
  | _ => none

end ParseFault

------------------------------------------------------------
-- Names, scalars and queries
------------------------------------------------------------

/- Why a name, a scalar or a query is refused. -/
inductive ValidationFault where
  | tableName (name context : String)
  | columnName (name context : String)
  | parameterName (name context : String)
  | operator (text context : String)
  | dictionaryName (kind name : String)
  | dictionaryReserved (kind name : String)
  | notStorable
  | inexact (i : Int)
  | fromMissing
  | selectEmpty
  | limitRange (limit : Nat)
  | orderNotSelected (field : String)
  | notInteger (found : Scalar)
  | fewColumns
  | other (text : String)
deriving DecidableEq

def ValidationFault.message : ValidationFault → String
  | tableName name context =>
      "Invalid table name: " ++ name ++
        " (in: " ++ context ++ ")"
  | columnName name context =>
      "Invalid column name: " ++ name ++
        " (in: " ++ context ++ ")"
  | parameterName name context =>
      "Invalid parameter name: " ++ name ++
        " (in: " ++ context ++ ")"
  | operator text context =>
      "Invalid query operator: " ++ text ++
        " (in: " ++ context ++ ")"
  | dictionaryName kind name =>
      kind ++ " name is not valid: " ++ name
  | dictionaryReserved kind name =>
      kind ++ " name is reserved: " ++ name
  | notStorable => "NaN is not a storable number"
  | inexact i =>
      toString i ++ " cannot be stored exactly as a number"
  | fromMissing => "Invalid query, FROM is missing"
  | selectEmpty => "Invalid query, SELECT is empty"
  | limitRange limit =>
      "Invalid query, LIMIT is out of range: " ++
        toString limit
  | orderNotSelected field =>
      "Invalid query, ORDER BY columns must be present in " ++
        "SELECT column list: " ++ field
  | notInteger found =>
      "Query result is not an integer: " ++ found.display
  | fewColumns =>
      "Dictionary queries need at least two columns"
  | other text => text

------------------------------------------------------------
-- The store
------------------------------------------------------------

/- Why the store fails or gives an unusable answer. -/
inductive StoreFault where
  | columnRange (column : Nat)
  | notInteger (column : Nat) (found : Cell)
  | notNumber (column : Nat) (found : Cell)
  | notText (column : Nat) (found : Cell)
  | badTimestamp (text : String) (fault : Timestamp.Fault)
  | foreignKey
  | unique (columns : List String)
  | ambiguousAlias (label : String)
  | tooManyTables
  | tooManyColumns
  | tooManyOrders
  | tooDeep
  | patternTooLong
  | unknownOperator (op : String)
  | badSearch (text : String)
  | misplacedSearch
  | noTransaction
  | cannotOpen
  | other (text : String)
deriving DecidableEq

def StoreFault.message : StoreFault → String
  | columnRange column =>
      "column index out of range: " ++ toString column
  | notInteger column found =>
      "column " ++ toString column ++
        " is not an integer: " ++ found.debug
  | notNumber column found =>
      "column " ++ toString column ++
        " is not a number: " ++ found.debug
  | notText column found =>
      "column " ++ toString column ++
        " is not text: " ++ found.debug
  | badTimestamp text fault =>
      "bad timestamp " ++ Quoted.quote text ++ ": " ++
        fault.message
  | foreignKey => "FOREIGN KEY constraint failed"
  | unique columns =>
      "UNIQUE constraint failed: " ++
        ", ".intercalate columns
  | ambiguousAlias label => "ambiguous alias: " ++ label
  | tooManyTables => "at most 64 tables in a join"
  | tooManyColumns => "too many columns in a result"
  | tooManyOrders => "too many terms in an order"
  | tooDeep => "conditions are too deep"
  | patternTooLong => "pattern is too long"
  | unknownOperator op => "unknown operator: " ++ op
  | badSearch text => "syntax error in search: " ++ text
  | misplacedSearch =>
      "unable to use a search in the requested context"
  | noTransaction =>
      "cannot commit - no transaction is active"
  | cannotOpen => "unable to open the store"
  | other text => text

------------------------------------------------------------
-- Errors
------------------------------------------------------------

/- Everything that can go wrong. -/
inductive Error where
  | config (text : String)
  | store (fault : StoreFault)
  | parse (fault : ParseFault) (statement : String)
  | validation (fault : ValidationFault)
  | typeMismatch
      (name : String)
      (value : Scalar)
      (valueNumeric nameNumeric : Bool)
  | notFound (what : String)
  | exhausted
      (what : String)
      (attempts : Nat)
      (last : Error)
  | invariant (text : String)
  | lock (text : String)
deriving DecidableEq

namespace Error

/- Only a failure of the store may pass when tried again. -/
def isRetryable : Error → Bool
  | store _ => true
  | _ => false

/- The text for attempts that all failed. -/
def exhaustedMessage
    (what : String)
    (attempts : Nat)
    (last : String) : String :=
  what ++ " fails after " ++ toString attempts ++
    " tries: " ++ last

/- The text of an error. -/
def message : Error → String
  | config text => "Config error: " ++ text
  | store fault => "Persistence error: " ++ fault.message
  | parse fault statement =>
      "Parse error: " ++ fault.reason ++
        " (in: " ++ statement ++ ")"
  | validation fault =>
      "Validation error: " ++ fault.message
  | typeMismatch name value valueNumeric nameNumeric =>
      "Data numeric does not match name: " ++ name ++
        " - value is numeric: " ++ toString valueNumeric ++
        " - " ++ value.display ++
        " - name is numeric: " ++ toString nameNumeric
  | notFound what => "Not found: " ++ what
  | exhausted what attempts last =>
      exhaustedMessage what attempts last.message
  | invariant text =>
      "Internal invariant violated: " ++ text
  | lock text => "Lock poisoned: " ++ text

end Error

end SparseTables
