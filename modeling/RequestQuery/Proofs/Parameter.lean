/-
# Parameters and the values they come from

A value that is bound to a statement and read back is the value it was, unless it is an integer that
no signed word can hold (`toJson_ofJson`): that one comes back as the double nearest to it.  Once it
is a double it stays one, so binding a second time changes nothing (`ofJson_toJson_ofJson`).
-/
import RequestQuery.Parameter
import RequestQuery.Proofs.Json.Number

namespace RequestQuery

set_option autoImplicit false

/-- Not an integer beyond the signed words. -/
def Json.Value.FitsSigned : Json.Value → Prop
  | .number (.integer n _) => n < 0x8000000000000000
  | _ => True

namespace Parameter

theorem toJson_ofNumber {n : Json.Number} (fits : Json.Value.FitsSigned (.number n)) :
    (ofNumber n).toJson = .number n := by
  unfold ofNumber
  cases word : n.toInt64? with
  | some i => exact congrArg Json.Value.number (Json.Number.ofInt64_of_toInt64? word)
  | none =>
      cases n with
      | integer k isWord =>
          have : k < 0x8000000000000000 := fits
          simp [Json.Number.toInt64?, this] at word
      | double x finite =>
          change Json.Value.ofFloat x = _
          rw [Json.Value.ofFloat, Json.Number.ofFloat?_of_isFinite finite]

theorem toJson_ofJson {value : Json.Value} (fits : value.FitsSigned) :
    (ofJson value).toJson = value := by
  cases value with
  | number n => exact toJson_ofNumber fits
  | _ => rfl

theorem ofNumber_double {x : Float} (finite : x.isFinite = true) :
    ofJson (.ofFloat x) = .double x := by
  rw [Json.Value.ofFloat, Json.Number.ofFloat?_of_isFinite finite]
  rfl

theorem ofJson_toJson_ofJson (value : Json.Value) : ofJson (ofJson value).toJson = ofJson value := by
  cases value with
  | number n =>
      change ofJson (ofNumber n).toJson = ofNumber n
      cases word : n.toInt64? with
      | some i =>
          have fits : Json.Value.FitsSigned (.number n) := by
            cases n with
            | double x finite => trivial
            | integer k isWord =>
                simp only [Json.Number.toInt64?, Option.ite_none_right_eq_some] at word
                exact word.1
          rw [toJson_ofNumber fits]
          rfl
      | none =>
          have rounded : ofNumber n = .double n.toFloat := by
            rw [ofNumber, word]
          rw [rounded]
          exact ofNumber_double (Json.Number.isFinite_toFloat word)
  | _ => rfl

end Parameter

end RequestQuery
