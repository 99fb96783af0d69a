/-
# Filters and sort keys of a request

Both are objects: filters map a field to the value it has to equal, sort keys map a field to a
direction.  The order of the members is kept, and null stands for none of them.
-/
import RequestQuery.Parameter
import RequestQuery.Request.Entry
import RequestQuery.SortOrder

namespace RequestQuery.Request

set_option autoImplicit false

/-! ## Filters -/

/-- The value that each field has to equal. -/
abbrev Filters := Ordered Parameter

namespace Filters

def ofJson : Json.Value → Outcome Filters
  | .null => .ok []
  | .object members => .ok (Ordered.ofList (members.map fun m => (m.1, Parameter.ofJson m.2)))
  | other =>
      Failure.raise (.invalidFilter "filters" (wantedKind "an object of field to value" other))

def toJson (filters : Filters) : Json.Value :=
  .object (filters.map fun entry => (entry.1, entry.2.toJson))

end Filters

/-! ## Sort keys -/

/-- The direction of each sort key. -/
abbrev Sorting := Ordered SortOrder

namespace Sorting

/-- The direction that is given for a field. -/
def direction (field : String) (value : Json.Value) : Outcome SortOrder :=
  match value.string?.bind SortOrder.parse? with
  | some order => .ok order
  | none =>
      Failure.raise
        (.invalidFilter ("sort." ++ field) ("direction must be ASC or DESC, got " ++ value.text))

def ofJson : Json.Value → Outcome Sorting
  | .null => .ok []
  | .object members => do
      let keys ← members.mapM fun m => do
        let order ← direction m.1 m.2
        pure (m.1, order)
      pure (Ordered.ofList keys)
  | other =>
      Failure.raise (.invalidFilter "sort" (wantedKind "an object of field to direction" other))

def toJson (sorting : Sorting) : Json.Value :=
  .object (sorting.map fun entry => (entry.1, .string entry.2.keyword))

end Sorting

end RequestQuery.Request
