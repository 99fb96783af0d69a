/-
# Existence directives

An existence directive keeps the parents that have a related record, or, negated, those that have
none.  It may compare the primary key of the related record with a value, and it may ask to load
the relation together with one relation nested below it.

The checks are made in the order relation, operator, value, nested load.  A negation is never
wrong: every value counts as yes or no.
-/
import RequestQuery.Parameter
import RequestQuery.Request.Load

namespace RequestQuery.Request

set_option autoImplicit false

/-! ## Comparison operators -/

inductive Operator where
  | equal
  | greater
  | less
  /-- A text that is no known operator; it compares for equality. -/
  | other (text : String)
  deriving DecidableEq, Repr, Inhabited

namespace Operator

def ofText (s : String) : Operator :=
  let s := Text.trim s
  if Text.sameLetters s "eq" then .equal
  else if Text.sameLetters s "gt" then .greater
  else if Text.sameLetters s "lt" then .less
  else .other s

def text : Operator → String
  | .equal => "eq"
  | .greater => "gt"
  | .less => "lt"
  | .other s => s

def symbol : Operator → String
  | .greater => ">"
  | .less => "<"
  | .equal | .other _ => "="

end Operator

/-! ## Directives -/

structure Existence where
  relation : String
  operator : Operator := .equal
  /-- The value that the related primary key is compared with. -/
  value : Option Parameter := none
  negated : Bool := false
  load : Option Load := none
  deriving Inhabited

namespace Existence

def comparing (existence : Existence) (operator : Operator) (value : Parameter) : Existence :=
  { existence with operator, value := some value }

/-! ## Reading -/

/-- The texts that mean no, ignoring the case of their letters. -/
def falseWords : List String := ["", "0", "false", "no", "off"]

/-- Does a value mean yes? -/
def isTruthy : Json.Value → Bool
  | .null => false
  | .bool b => b
  | .number n => n.toFloat != 0.0
  | .string s => !falseWords.any (Text.sameLetters (Text.trim s))
  | .array items => !items.isEmpty
  | .object members => !members.isEmpty

/-- A value to compare with; documents are refused. -/
def scalar? : Json.Value → Option Parameter
  | .array _ | .object _ => none
  | value => some (Parameter.ofJson value)

/-- `negate` is looked at first, and `not` only where it is missing. -/
def negation (members : Json.Members) : Bool :=
  match members.get? "negate" <|> members.get? "not" with
  | some value => isTruthy value
  | none => false

/-- The load nested in the directive. -/
def nestedLoad (members : Json.Members) : Outcome (Option Load) :=
  match given? members "load" with
  | none => .ok none
  | some (.object nested) => do
      let load ← Load.ofMembers "where_has.load" nested
      pure (some load)
  | some other =>
      Failure.raise (.invalidInput "where_has.load" (wantedKind "a load directive object" other))

def ofMembers (members : Json.Members) : Outcome Existence := do
  let relation ← relationName "where_has" members
  let operator ←
    entry "where_has" members "operator" (wantedValue "eq, gt or lt") .equal fun v =>
      v.string?.map Operator.ofText
  let value ←
    entry "where_has" members "value" (wantedKind "a scalar") none fun v =>
      (scalar? v).map some
  let load ← nestedLoad members
  pure { relation, operator, value, negated := negation members, load }

def ofJson : Json.Value → Outcome Existence
  | .object members => ofMembers members
  | other => Failure.raise (.invalidInput "where_has" (wantedKind "an object" other))

def listOfJson : Json.Value → Outcome (List Existence) :=
  directives "where_has" "a list of existence directives" ofJson

/-! ## Writing -/

/-- The value and the load are left out where there is none. -/
def toJson (existence : Existence) : Json.Value :=
  .object
    ([("relationship", .string existence.relation),
      ("operator", .string existence.operator.text)] ++
     (existence.value.map fun v => ("value", v.toJson)).toList ++
     [("negate", .bool existence.negated)] ++
     (existence.load.map fun l => ("load", l.toJson)).toList)

end Existence

end RequestQuery.Request
