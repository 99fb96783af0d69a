/-
# Faults of a store

What can go wrong between this library and the database below it.  A fault keeps to the layer that
it comes from; seen from above it is a failure of the corresponding code, and the error of the
driver stays visible as the source.
-/
import RequestQuery.Failure

namespace RequestQuery.Store

set_option autoImplicit false

/-- An error that the database driver raises. -/
inductive DriverError where
  | invalidParameterName (name : String)
  | notReadOnly
  | cannotOpen (path : String)
  deriving DecidableEq, Repr

/-- The driver's own wording; texts in it are not escaped. -/
def DriverError.text (error : DriverError) : String :=
  let reason := match error with
    | .invalidParameterName name => "Invalid parameter name: " ++ name
    | .notReadOnly => "Query is not read-only"
    | .cannotOpen path => "unable to open database file: " ++ path
  "Rusqlite(\"" ++ reason ++ "\")"

inductive Fault where
  | pool (reason : String)
  | driver (error : DriverError)
  | configuration (reason : String)
  | connection (reason : String)
  | typeConversion (reason : String)
  deriving DecidableEq, Repr

namespace Fault

def text : Fault → String
  | .pool reason => "Pool error: " ++ reason
  | .driver error => "SQLite error: " ++ error.text
  | .configuration reason => "Configuration error: " ++ reason
  | .connection reason => "Connection error: " ++ reason
  | .typeConversion reason => "Type conversion error: " ++ reason

/-- The text of what a fault was made from. -/
def source? : Fault → Option String
  | .driver error => some error.text
  | _ => none

/-- A fault as a failure of the library. -/
def toFailure : Fault → Failure
  | .pool reason => Failure.of (.poolExhausted reason)
  | .driver error => (Failure.of (.database error.text)).withSource error.text
  | .configuration reason => Failure.of (.configuration reason)
  | .connection reason => Failure.of (.connection reason)
  | .typeConversion reason => Failure.of (.serialization ("type: " ++ reason))

/-- A database file that cannot be opened. -/
def cannotOpen (path : String) : Fault :=
  .connection ("failed to open '" ++ path ++ "': " ++ (DriverError.cannotOpen path).text)

end Fault

end RequestQuery.Store
