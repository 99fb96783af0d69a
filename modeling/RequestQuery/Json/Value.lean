/-
# JSON values

Objects keep the order of their members.  A member list is raw: that its names are distinct is a
property of the values in use (`Value.Distinct`), which the reader establishes, not a part of the
type.
-/
import RequestQuery.Ordered
import RequestQuery.Json.Number

namespace RequestQuery.Json

set_option autoImplicit false

inductive Value where
  | null
  | bool (b : Bool)
  | number (n : Number)
  | string (s : String)
  | array (items : List Value)
  | object (members : List (String × Value))
  deriving Inhabited

/-- The members of an object, or the columns of a row. -/
abbrev Members := Ordered Value

namespace Value

/-! ## Making values -/

def ofInt64 (i : Int64) : Value :=
  .number (.ofInt64 i)

def ofUInt64 (n : UInt64) : Value :=
  .number (.ofUInt64 n)

/-- A double, or `null` in the place of one that is not finite. -/
def ofFloat (x : Float) : Value :=
  match Number.ofFloat? x with
  | some n => .number n
  | none => .null

/-! ## Looking at values -/

/-- What a message calls a value of this kind. -/
def kind : Value → String
  | .null => "null"
  | .bool _ => "a boolean"
  | .number _ => "a number"
  | .string _ => "a string"
  | .array _ => "an array"
  | .object _ => "an object"

def string? : Value → Option String
  | .string s => some s
  | _ => none

def int64? : Value → Option Int64
  | .number n => n.toInt64?
  | _ => none

mutual

/-- In every object of the value the names are distinct. -/
def Distinct : Value → Prop
  | .array items => allDistinct items
  | .object members => (Ordered.names members).Nodup ∧ allMembersDistinct members
  | _ => True

def allDistinct : List Value → Prop
  | [] => True
  | v :: vs => v.Distinct ∧ allDistinct vs

def allMembersDistinct : List (String × Value) → Prop
  | [] => True
  | (_, v) :: rest => v.Distinct ∧ allMembersDistinct rest

end

mutual

/-- How many arrays and objects are nested in each other. -/
def depth : Value → Nat
  | .array items => depths items + 1
  | .object members => memberDepths members + 1
  | _ => 0

def depths : List Value → Nat
  | [] => 0
  | v :: vs => max v.depth (depths vs)

def memberDepths : List (String × Value) → Nat
  | [] => 0
  | (_, v) :: rest => max v.depth (memberDepths rest)

end

end Value

end RequestQuery.Json
