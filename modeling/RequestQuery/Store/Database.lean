/-
# Databases and their addresses

A database is kept in memory or in a file, and has three settings that are applied to each new
connection.  Its address is a location, perhaps with a scheme, and options after a question mark.
Options that are not known are passed over, and so are those without an equals sign.
-/
import RequestQuery.Decimal.Whole
import RequestQuery.Store.Fault
import RequestQuery.Text.Blank
import RequestQuery.Text.Case

namespace RequestQuery.Store

set_option autoImplicit false

/-! ## Databases -/

inductive Location where
  | memory
  | file (path : String)
  deriving DecidableEq, Repr, Inhabited

namespace Location

def path : Location → String
  | .memory => ":memory:"
  | .file path => path

def isMemory : Location → Bool
  | .memory => true
  | .file _ => false

end Location

inductive JournalMode where
  | delete
  | memory
  | wal
  deriving DecidableEq, Repr, Inhabited

namespace JournalMode

def keyword : JournalMode → String
  | .delete => "DELETE"
  | .memory => "MEMORY"
  | .wal => "WAL"

/-- The mode of a keyword in any letter case. -/
def ofText? (s : String) : Option JournalMode :=
  [.delete, .memory, .wal].find? fun mode => Text.sameLetters s mode.keyword

end JournalMode

structure Database where
  location : Location
  foreignKeys : Bool := true
  /-- How many milliseconds a connection waits for a lock. -/
  busyTimeout : Option UInt32 := some 5000
  journalMode : JournalMode := .wal
  deriving DecidableEq, Repr, Inhabited

namespace Database

def inMemory : Database :=
  { location := .memory, journalMode := .memory }

def inFile (path : String) : Database :=
  { location := .file path }

/-- The statements that set up a new connection. -/
def setup (database : Database) : String :=
  (if database.foreignKeys then "PRAGMA foreign_keys = ON;\n" else "") ++
    "PRAGMA journal_mode = " ++ database.journalMode.keyword ++ ";\n" ++
    match database.busyTimeout with
    | some timeout => "PRAGMA busy_timeout = " ++ Decimal.natural timeout.toNat ++ ";\n"
    | none => ""

/-! ## Addresses -/

def pathRequired : Fault :=
  .configuration "database path is required"

/-- The database in a file whose path must not be empty. -/
def inNamedFile (path : List Char) : Except Fault Database :=
  if path.isEmpty then .error pathRequired else .ok (inFile (String.ofList path))

/-- The database at a location, with the settings that it has by itself. -/
def atLocation (location : List Char) : Except Fault Database :=
  if location = "sqlite::memory:".toList ∨ location = ":memory:".toList then .ok inMemory
  else
    match Text.afterPrefix? "sqlite://".toList location with
    | some path => inNamedFile path
    | none =>
        match Text.afterPrefix? "sqlite:".toList location with
        | some path => inNamedFile path
        | none =>
            match Text.afterPrefix? "file:".toList location with
            | some path => .ok (inFile (String.ofList path))
            | none =>
                if location.isEmpty then .error (.configuration "database URL is empty")
                else .ok (inFile (String.ofList location))

/-- One option of an address. -/
def withOption (database : Database) (name value : String) : Except Fault Database :=
  match name with
  | "mode" =>
      .ok (if value = "memory" then { database with location := .memory, journalMode := .memory }
        else database)
  | "foreign_keys" =>
      .ok { database with foreignKeys := ["true", "1", "on"].contains value }
  | "busy_timeout" =>
      match Decimal.naturalUpTo? 0xFFFFFFFF value with
      | some timeout => .ok { database with busyTimeout := some (UInt32.ofNat timeout) }
      | none => .error (.configuration ("invalid busy_timeout '" ++ value ++ "'"))
  | "journal_mode" =>
      match JournalMode.ofText? value with
      | some journalMode => .ok { database with journalMode }
      | none => .error (.configuration ("unsupported journal_mode '" ++ value ++ "'"))
  | _ => .ok database

/-- The names and values of the options behind the question mark. -/
def optionPairs (options : List Char) : List (String × String) :=
  (Text.splitChars '&' options).filterMap fun option =>
    (Text.cutChars '=' option).map fun parts => (String.ofList parts.1, String.ofList parts.2)

/-- The database that an address names. -/
def ofAddress (address : String) : Except Fault Database := do
  let address := Text.trimChars address.toList
  let (location, options) := (Text.cutChars '?' address).getD (address, [])
  let database ← atLocation location
  (optionPairs options).foldlM (fun database option => database.withOption option.1 option.2)
    database

/-- The database that is given, or else the one that an address names. -/
def choose (database : Option Database) (address : Option String) : Except Fault Database :=
  match database, address with
  | some database, _ => .ok database
  | none, some address => ofAddress address
  | none, none => .error (.configuration "no database URL or config provided")

end Database

end RequestQuery.Store
