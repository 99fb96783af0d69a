/-
# Entries of a request

A request is loosely typed.  An entry that is missing and one that is null mean the same, and a
value of the wrong shape is answered by naming what was wanted and what was found: the kind of the
value where its content does not matter, its JSON text where it does.
-/
import RequestQuery.Failure
import RequestQuery.Json.Printer
import RequestQuery.Text.Blank

namespace RequestQuery.Request

set_option autoImplicit false

/-! ## What was wanted and what was found -/

/-- A mismatch in the kind of a value. -/
def wantedKind (wanted : String) (found : Json.Value) : String :=
  "expected " ++ wanted ++ ", got " ++ found.kind

/-- A mismatch in the value itself. -/
def wantedValue (wanted : String) (found : Json.Value) : String :=
  "expected " ++ wanted ++ ", got " ++ found.text

/-! ## Reading entries -/

/-- The entry of a name, if it is there and not null. -/
def given? (members : Json.Members) (name : String) : Option Json.Value :=
  match members.get? name with
  | some .null => none
  | value => value

/-- The trimmed text of a string that is not blank. -/
def nonBlank? (value : Json.Value) : Option String := do
  let s ← value.string?
  let trimmed := Text.trim s
  if trimmed = "" then none else some trimmed

/-- An entry of a directive: `fallback` where nothing is given, otherwise what `read` makes of
it. -/
def entry {α : Type} (directive : String) (members : Json.Members) (name : String)
    (mismatch : Json.Value → String) (fallback : α) (read : Json.Value → Option α) :
    Outcome α :=
  match given? members name with
  | none => .ok fallback
  | some value =>
      match read value with
      | some a => .ok a
      | none => Failure.raise (.invalidInput (directive ++ "." ++ name) (mismatch value))

/-- The relation that a directive is about: the one entry that has to be given. -/
def relationName (directive : String) (members : Json.Members) : Outcome String :=
  match given? members "relationship" with
  | none => Failure.raise (.missingKey directive "relationship")
  | some value =>
      match nonBlank? value with
      | some relation => .ok relation
      | none =>
          Failure.raise
            (.invalidInput (directive ++ ".relationship") (wantedValue "a relation name" value))

/-- The items of a list of directives: nothing, one directive alone, or an array of them. -/
def directives {α : Type} (directive listed : String) (read : Json.Value → Outcome α) :
    Json.Value → Outcome (List α)
  | .null => .ok []
  | .array items => items.mapM read
  | .object members => do
      let item ← read (.object members)
      pure [item]
  | other => Failure.raise (.invalidInput directive (wantedKind listed other))

end RequestQuery.Request
