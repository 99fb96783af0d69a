/-
# Queries

A query is a request in typed form.  `ofRequest` reads one from JSON, `toRequest` writes it in the
spelling that a reader needs no defaults for, and the `with` functions build one up from nothing.

Of the parts of a request only the filters, the loads, the existence directives and the sort keys
can be wrong; they are read in this order.
-/
import RequestQuery.Request.Existence
import RequestQuery.Request.FieldList
import RequestQuery.Request.Filters

namespace RequestQuery.Request

set_option autoImplicit false

structure Query where
  select : Option FieldList := none
  filters : Filters := []
  loads : List Load := []
  existences : List Existence := []
  groupBy : Option FieldList := none
  sorting : Sorting := []
  deriving Inhabited

namespace Query

/-! ## Reading and writing requests -/

/-- The value of the first of the names that is there, even if it is null. -/
def spelled (members : Json.Members) (names : List String) : Json.Value :=
  (names.findSome? members.get?).getD .null

def ofMembers (members : Json.Members) : Outcome Query := do
  let filters ← Filters.ofJson (spelled members ["filters"])
  let loads ← Load.listOfJson (spelled members ["load"])
  let existences ← Existence.listOfJson (spelled members ["where_has", "whereHas"])
  let sorting ← Sorting.ofJson (spelled members ["sort"])
  pure
    { select := FieldList.ofJson? (spelled members ["select"])
      filters, loads, existences
      groupBy := FieldList.ofJson? (spelled members ["group_by", "groupBy"])
      sorting }

def ofRequest : Json.Value → Outcome Query
  | .null => .ok {}
  | .object members => ofMembers members
  | other => Failure.raise (.invalidInput "request" (wantedKind "an object" other))

def toRequest (query : Query) : Json.Value :=
  .object
    [("select", FieldList.toJson query.select),
     ("filters", query.filters.toJson),
     ("load", .array (query.loads.map Load.toJson)),
     ("where_has", .array (query.existences.map Existence.toJson)),
     ("group_by", FieldList.toJson query.groupBy),
     ("sort", query.sorting.toJson)]

/-! ## Building queries -/

def withSelect (query : Query) (fields : List String) : Query :=
  { query with select := FieldList.nonEmpty? fields }

def withFilter (query : Query) (field : String) (value : Parameter) : Query :=
  { query with filters := query.filters.put field value }

def withLoad (query : Query) (load : Load) : Query :=
  { query with loads := query.loads ++ [load] }

def withExistence (query : Query) (existence : Existence) : Query :=
  { query with existences := query.existences ++ [existence] }

def withGroupBy (query : Query) (keys : List String) : Query :=
  { query with groupBy := FieldList.nonEmpty? keys }

def withSort (query : Query) (field : String) (order : SortOrder) : Query :=
  { query with sorting := query.sorting.put field order }

end Query

end RequestQuery.Request
