/-
# Match keys

Related records are matched with their parents by key.  Keys come from different columns, so the
same key may be written as an integer in one row and as an integral double or a boolean in another.
The match key is one text for all of these; texts have match keys of their own, and null, arrays
and objects have none.
-/
import RequestQuery.Decimal.Binary64
import RequestQuery.Json.Value

namespace RequestQuery.Plan

set_option autoImplicit false

/-- Integral doubles below this bound are matched as integers. -/
def integralBound : Nat := 9000000000000000

def numberKey (n : Json.Number) : String :=
  match n.toInt64? with
  | some i => Decimal.integer i.toInt
  | none =>
      match (Decimal.Binary64.ofFloat n.toFloat).toInt? with
      | some i => if i.natAbs < integralBound then Decimal.integer i else n.text
      | none => n.text

def matchKey? : Json.Value → Option String
  | .null | .array _ | .object _ => none
  | .bool b => some (if b then "1" else "0")
  | .number n => some (numberKey n)
  | .string s => some ("s:" ++ s)

end RequestQuery.Plan
