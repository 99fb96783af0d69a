/-
# Load directives

A load directive names a relation whose records are to be fetched along with their parents, and
says how many of them per parent and in which order.  The relation has to be given; the order key,
the direction and the limit have defaults.  The direction stays a text here: whether it is one of
the two directions is decided when the directive is compiled.

The checks are made in the order relation, nesting, key, direction, limit, and the first one that
fails is reported.
-/
import RequestQuery.Request.Entry
import RequestQuery.SortOrder

namespace RequestQuery.Request

set_option autoImplicit false

structure Load where
  relation : String
  key : String := "id"
  direction : String := "ASC"
  limit : UInt64 := 5
  deriving DecidableEq, Repr, Inhabited

namespace Load

/-- Order the related records by a key. -/
def orderedBy (load : Load) (key : String) (order : SortOrder) : Load :=
  { load with key, direction := order.keyword }

def sortOrder? (load : Load) : Option SortOrder :=
  SortOrder.parse? load.direction

/-! ## Reading -/

/-- A limit is a positive whole number, as a number or as a text. -/
def limit? (value : Json.Value) : Option UInt64 := do
  let limit ← match value with
    | .number n => n.toUInt64?
    | .string s => (Decimal.naturalUpTo? 0xFFFFFFFFFFFFFFFF (Text.trim s)).map UInt64.ofNat
    | _ => none
  if limit = 0 then none else some limit

def direction? (value : Json.Value) : Option String :=
  value.string?.map fun s => Text.upper (Text.trim s)

/-- The load that the members of an object ask for; `directive` is what failures call it. -/
def ofMembers (directive : String) (members : Json.Members) : Outcome Load := do
  let relation ← relationName directive members
  if (members.get? "load").isSome then
    Failure.raise (.unsupportedNesting relation)
  let key ← entry directive members "key" (wantedValue "a column name") "id" nonBlank?
  let direction ←
    entry directive members "direction" (wantedValue "ASC or DESC") "ASC" direction?
  let limit ← entry directive members "limit" (wantedValue "a positive integer") 5 limit?
  pure { relation, key, direction, limit }

def ofJson : Json.Value → Outcome Load
  | .object members => ofMembers "load" members
  | other => Failure.raise (.invalidInput "load" (wantedKind "an object" other))

def listOfJson : Json.Value → Outcome (List Load) :=
  directives "load" "a list of load directives" ofJson

/-! ## Writing -/

def toJson (load : Load) : Json.Value :=
  .object
    [("relationship", .string load.relation), ("key", .string load.key),
     ("direction", .string load.direction), ("limit", .ofUInt64 load.limit)]

end Load

end RequestQuery.Request
