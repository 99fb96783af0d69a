/-
# Parameters

A parameter is a value that a condition compares with or a statement binds.  Every JSON value has
one: integers of a signed 64-bit word stay integers, all other numbers become doubles, arrays and
objects are kept as documents.  `toJson` goes back.
-/
import RequestQuery.Json.Printer

namespace RequestQuery

set_option autoImplicit false

inductive Parameter where
  | null
  | bool (b : Bool)
  | int (i : Int64)
  | double (x : Float)
  | text (s : String)
  | document (value : Json.Value)
  deriving Inhabited

namespace Parameter

def ofNumber (n : Json.Number) : Parameter :=
  match n.toInt64? with
  | some i => .int i
  | none => .double n.toFloat

def ofJson : Json.Value → Parameter
  | .null => .null
  | .bool b => .bool b
  | .number n => ofNumber n
  | .string s => .text s
  | .array items => .document (.array items)
  | .object members => .document (.object members)

def toJson : Parameter → Json.Value
  | .null => .null
  | .bool b => .bool b
  | .int i => .ofInt64 i
  | .double x => .ofFloat x
  | .text s => .string s
  | .document value => value

/-- The null parameter in the place of a value that is not there. -/
def ofOption {α : Type} (make : α → Parameter) : Option α → Parameter
  | some a => make a
  | none => .null

def isNull : Parameter → Bool
  | .null => true
  | _ => false

/-- Anything but a document. -/
def isScalar : Parameter → Bool
  | .document _ => false
  | _ => true

end Parameter

end RequestQuery
