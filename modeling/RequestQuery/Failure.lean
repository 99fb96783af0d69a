/-
# Failures

Everything that can go wrong has a cause.  The cause fixes the code and the wording; around it a
failure keeps what was being done, on which entity, field and statement, and what may help.

The codes form families.  A validation failure rejects a request before anything touches the store;
a missing record is a lookup that found nothing; a store failure comes from below, and a connection
failure is the part of these that happens before a statement runs.
-/
import RequestQuery.Decimal.Whole

namespace RequestQuery

set_option autoImplicit false

namespace Failure

/-! ## Codes -/

inductive Code where
  | recordNotFound
  | invalidFilter
  | invalidSelect
  | requiredFieldMissing
  | invalidRelation
  | unsupportedNesting
  | limitExceeded
  | invalidParameter
  | connectionFailed
  | poolExhausted
  | databaseError
  | serializationError
  | deserializationError
  | invalidConfiguration
  | internal
  deriving DecidableEq, Repr

namespace Code

def number : Code → Nat
  | .recordNotFound => 1001
  | .invalidFilter => 1003
  | .invalidSelect => 1004
  | .requiredFieldMissing => 1005
  | .invalidRelation => 1006
  | .unsupportedNesting => 1007
  | .limitExceeded => 1008
  | .invalidParameter => 1009
  | .connectionFailed => 3001
  | .poolExhausted => 3002
  | .databaseError => 5005
  | .serializationError => 6002
  | .deserializationError => 6003
  | .invalidConfiguration => 7001
  | .internal => 9001

/-- The code as it is shown to a caller. -/
def label (code : Code) : String :=
  "Q" ++ Decimal.natural code.number

def description : Code → String
  | .recordNotFound => "Record not found"
  | .invalidFilter => "Invalid filter condition"
  | .invalidSelect => "Invalid field selection"
  | .requiredFieldMissing => "Required field missing"
  | .invalidRelation => "Unknown entity or relation"
  | .unsupportedNesting => "Unsupported nesting depth"
  | .limitExceeded => "Configured limit exceeded"
  | .invalidParameter => "Invalid parameter"
  | .connectionFailed => "Database connection failed"
  | .poolExhausted => "Connection pool exhausted"
  | .databaseError => "Database error"
  | .serializationError => "Serialization error"
  | .deserializationError => "Deserialization error"
  | .invalidConfiguration => "Invalid configuration"
  | .internal => "Internal error"

def isNotFound (code : Code) : Bool :=
  code = .recordNotFound

/-- The request itself was rejected. -/
def isValidation : Code → Bool
  | .invalidFilter | .invalidSelect | .requiredFieldMissing | .invalidRelation
  | .unsupportedNesting | .limitExceeded | .invalidParameter => true
  | _ => false

/-- The store failed. -/
def isStore : Code → Bool
  | .connectionFailed | .poolExhausted | .databaseError | .serializationError
  | .deserializationError => true
  | _ => false

/-- No connection could be had. -/
def isConnection : Code → Bool
  | .connectionFailed | .poolExhausted => true
  | _ => false

end Code

/-! ## Causes -/

inductive Cause where
  | recordNotFound (entity : String)
  | missingKey (directive key : String)
  | invalidInput (field reason : String)
  | invalidFilter (field reason : String)
  | unknownRelation (entity relation : String)
  | unknownEntity (entity : String)
  | unsupportedNesting (relation : String)
  | limitExceeded (what : String) (actual maximum : Nat)
  | connection (reason : String)
  | poolExhausted (reason : String)
  | database (reason : String)
  | serialization (reason : String)
  | deserialization (reason : String)
  | configuration (reason : String)
  | internal (reason : String)
  /-- A cause of the caller's own wording. -/
  | other (code : Code) (reason : String)
  deriving DecidableEq, Repr

/-- What surrounds a cause. -/
structure Context where
  operation : Option String := none
  entity : Option String := none
  field : Option String := none
  sql : Option String := none
  suggestions : List String := []
  help : Option String := none
  deriving DecidableEq, Repr

namespace Cause

def code : Cause → Code
  | .recordNotFound _ => .recordNotFound
  | .missingKey .. => .requiredFieldMissing
  | .invalidInput .. => .invalidParameter
  | .invalidFilter .. => .invalidFilter
  | .unknownRelation .. | .unknownEntity _ => .invalidRelation
  | .unsupportedNesting _ => .unsupportedNesting
  | .limitExceeded .. => .limitExceeded
  | .connection _ => .connectionFailed
  | .poolExhausted _ => .poolExhausted
  | .database _ => .databaseError
  | .serialization _ => .serializationError
  | .deserialization _ => .deserializationError
  | .configuration _ => .invalidConfiguration
  | .internal _ => .internal
  | .other code _ => code

def message : Cause → String
  | .recordNotFound entity => "No " ++ entity ++ " record found matching the identifier"
  | .missingKey directive key => directive ++ " must have '" ++ key ++ "' key"
  | .invalidInput field reason => "Invalid input for " ++ field ++ ": " ++ reason
  | .invalidFilter field reason => "Invalid filter on " ++ field ++ ": " ++ reason
  | .unknownRelation entity relation =>
      "Entity " ++ entity ++ " has no relation named '" ++ relation ++ "'"
  | .unknownEntity entity => "Unknown entity '" ++ entity ++ "'"
  | .unsupportedNesting relation =>
      "Load directive for '" ++ relation ++ "' cannot contain a nested load"
  | .limitExceeded what actual maximum =>
      what ++ " of " ++ Decimal.natural actual ++ " exceeds the configured maximum of " ++
        Decimal.natural maximum
  | .connection reason => "Connection error: " ++ reason
  | .deserialization reason => "Failed to deserialize result: " ++ reason
  | .internal reason => "Internal error: " ++ reason
  | .poolExhausted reason | .database reason | .serialization reason | .configuration reason
  | .other _ reason => reason

/-- What a cause says about its surroundings by itself. -/
def context : Cause → Context
  | .recordNotFound entity =>
      { entity := some entity
        suggestions := ["Verify the " ++ entity ++ " exists before updating or deleting it"] }
  | .missingKey directive key =>
      { operation := some ("resolving " ++ directive), field := some key }
  | .invalidInput field _ | .invalidFilter field _ => { field := some field }
  | .unknownRelation entity relation =>
      { entity := some entity
        field := some relation
        suggestions := ["Check the relation name against the entity schema"] }
  | .unknownEntity entity => { entity := some entity }
  | .unsupportedNesting relation =>
      { field := some relation
        help := some "Only one level of nested load is supported inside an existence filter" }
  | .limitExceeded what _ _ => { field := some what }
  | .connection _ => { suggestions := ["Verify the database URL is correct"] }
  | .database _ => { suggestions := ["Check the database logs for more details"] }
  | .poolExhausted _ | .serialization _ | .deserialization _ | .configuration _ | .internal _
  | .other .. => {}

end Cause

end Failure

/-- A cause with its surroundings and, if it came from below, the text of what was raised there. -/
structure Failure where
  cause : Failure.Cause
  context : Failure.Context
  source : Option String := none
  deriving DecidableEq, Repr

/-- Success or failure of an operation of this library. -/
abbrev Outcome (α : Type) := Except Failure α

namespace Failure

/-- The failure of a cause with what it says by itself. -/
def of (cause : Cause) : Failure :=
  { cause, context := cause.context }

/-- Fail with a cause. -/
def raise {α : Type} (cause : Cause) : Outcome α :=
  .error (of cause)

def code (failure : Failure) : Code :=
  failure.cause.code

def message (failure : Failure) : String :=
  failure.cause.message

/-! ## Adding surroundings -/

def withOperation (failure : Failure) (operation : String) : Failure :=
  { failure with context.operation := some operation }

def withEntity (failure : Failure) (entity : String) : Failure :=
  { failure with context.entity := some entity }

def withField (failure : Failure) (field : String) : Failure :=
  { failure with context.field := some field }

def withSql (failure : Failure) (sql : String) : Failure :=
  { failure with context.sql := some sql }

def withHelp (failure : Failure) (help : String) : Failure :=
  { failure with context.help := some help }

/-- Suggestions add up; the rest of the context is replaced. -/
def withSuggestion (failure : Failure) (suggestion : String) : Failure :=
  { failure with context.suggestions := failure.context.suggestions ++ [suggestion] }

def withSource (failure : Failure) (source : String) : Failure :=
  { failure with source := some source }

/-! ## Display -/

/-- One line: code and message. -/
def summary (failure : Failure) : String :=
  "[" ++ failure.code.label ++ "] " ++ failure.message

/-- How many characters of a statement are shown. -/
def shownSql : Nat := 200

def shortenSql (sql : String) : String :=
  if shownSql < sql.length then String.ofList (sql.toList.take shownSql) ++ "..." else sql

/-- A line of the report for a part of the context that is there. -/
def reportLine (label : String) : Option String → String
  | some text => "  → " ++ label ++ ": " ++ text ++ "\n"
  | none => ""

def suggestionLines (suggestions : List String) : String :=
  if suggestions.isEmpty then ""
  else
    "\nSuggestions:\n" ++
      String.join (suggestions.zipIdx.map fun item =>
        "  " ++ Decimal.natural (item.2 + 1) ++ ". " ++ item.1 ++ "\n")

/-- The failure with all of its context. -/
def report (failure : Failure) : String :=
  let context := failure.context
  "Error [" ++ failure.code.label ++ "]: " ++ failure.message ++ "\n" ++
    reportLine "While" context.operation ++
    reportLine "Entity" context.entity ++
    reportLine "Field" context.field ++
    reportLine "SQL" (context.sql.map shortenSql) ++
    suggestionLines context.suggestions ++
    match context.help with
    | some help => "\nHelp: " ++ help ++ "\n"
    | none => ""

end Failure

end RequestQuery
