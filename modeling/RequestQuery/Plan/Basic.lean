/-
# Plans

A plan is a query against a catalog with every name resolved: which table to read, which columns to
fetch, which conditions hold, and which related records to fetch afterwards.

Records are related by joins.  A join of the root may have further joins nested in it, and the
types end there: a nested join has none of its own.
-/
import RequestQuery.Catalog
import RequestQuery.Predicate
import RequestQuery.SortOrder

namespace RequestQuery

set_option autoImplicit false

namespace Plan

/-- How the records of a relation are fetched and matched with their parents. -/
structure Join where
  name : String
  cardinality : Cardinality
  table : String
  localKey : String
  foreignKey : String
  /-- Deleted related records are to be left out. -/
  softDeletes : Bool
  order : OrderKey
  /-- How many related records one parent gets. -/
  limit : Option UInt64
  /-- What the related records have to satisfy. -/
  constraint : Predicate
  deriving Inhabited

structure EagerLoad where
  join : Join
  /-- Known beforehand to relate nothing: no parent that is kept can have a related record. -/
  isEmpty : Bool := false
  nested : List Join := []
  deriving Inhabited

/-- A condition that a related record exists, or, negated, that none does. -/
structure Existence where
  table : String
  localKey : String
  foreignKey : String
  softDeletes : Bool
  /-- What the related record has to satisfy. -/
  comparison : Predicate
  negated : Bool
  deriving Inhabited

end Plan

structure Plan where
  entity : String
  table : String
  /-- The columns to fetch, the hidden ones last; all columns where there is none. -/
  projection : Option (List String)
  /-- Columns that are fetched for matching related records and not handed out. -/
  hidden : List String
  filter : Predicate
  existences : List Plan.Existence
  groupBy : List String
  orderBy : List OrderKey
  loads : List Plan.EagerLoad
  deriving Inhabited

namespace Plan

def relationNames (plan : Plan) : List String :=
  plan.loads.map (·.join.name)

end Plan

end RequestQuery
