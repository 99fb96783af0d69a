/-
# Compiling a query

A query is accepted when its entity is known, its load directives keep the limits, and every
relation and direction in it can be resolved; the failures come in this order, loads before
existence directives and an existence directive before the load nested in it.

Loads of one relation are merged.  Among explicit loads the first one fixes the place and the last
one the content (`Ordered.put`).  An existence directive with a nested load adds that load to the
relation, which it fetches on its own account if nothing else does (`attach`).
-/
import RequestQuery.Limits
import RequestQuery.Plan.Basic
import RequestQuery.Request.Query

namespace RequestQuery.Plan

set_option autoImplicit false

/-! ## Limits -/

/-- All load directives of a query, the nested ones last. -/
def directives (query : Request.Query) : List Request.Load :=
  query.loads ++ query.existences.filterMap (·.load)

def checkRelationLimit (limits : Limits) (query : Request.Query) : Outcome Unit :=
  match limits.relationLimit with
  | none => .ok ()
  | some maximum =>
      match (directives query).find? fun load => maximum < load.limit with
      | none => .ok ()
      | some load =>
          Failure.raise
            (.limitExceeded ("Limit for relation '" ++ load.relation ++ "'") load.limit.toNat
              maximum.toNat)

def checkEagerLoads (limits : Limits) (query : Request.Query) : Outcome Unit :=
  match limits.eagerLoads with
  | none => .ok ()
  | some maximum =>
      let count := (directives query).length
      if maximum.toNat < count then
        Failure.raise (.limitExceeded "Eager load count" count maximum.toNat)
      else .ok ()

/-! ## Loads -/

/-- The join that a load directive asks for. -/
def joinOf (catalog : Catalog) (parent : Entity) (load : Request.Load) : Outcome Join := do
  let (relation, target) ← catalog.related parent load.relation
  match load.sortOrder? with
  | none =>
      Failure.raise
        (.invalidInput ("load." ++ load.relation ++ ".direction")
          ("expected ASC or DESC, got '" ++ load.direction ++ "'"))
  | some order =>
      pure
        { name := relation.name
          cardinality := relation.cardinality
          table := target.table
          localKey := relation.localKey
          foreignKey := relation.foreignKey
          softDeletes := target.softDeletes
          order := { column := load.key, order }
          limit := some load.limit
          constraint := .none }

/-- The explicit loads by the name of their relation. -/
def explicitLoads (catalog : Catalog) (root : Entity) (loads : List Request.Load) :
    Outcome (Ordered EagerLoad) := do
  let joins ← loads.mapM (joinOf catalog root)
  pure (Ordered.ofList (joins.map fun join => (join.name, { join })))

/-! ## Existence directives -/

/-- The comparison of a column with a value; only equality knows null. -/
def comparison (operator : Request.Operator) (column : String) (value : Parameter) :
    Predicate :=
  match operator with
  | .greater => .greater column value
  | .less => .less column value
  | .equal | .other _ => Predicate.equality column value

/-- An existence directive with its names resolved: its condition and, if it has a nested load,
the load of its own relation with that one in it. -/
structure ResolvedExistence where
  condition : Existence
  load : Option EagerLoad

def resolveExistence (catalog : Catalog) (root : Entity) (existence : Request.Existence) :
    Outcome ResolvedExistence := do
  let (relation, target) ← catalog.related root existence.relation
  let compared :=
    match existence.value with
    | some value => comparison existence.operator target.primaryKey value
    | none => .none
  let nested ← existence.load.mapM (joinOf catalog target)
  pure
    { condition :=
        { table := target.table
          localKey := relation.localKey
          foreignKey := relation.foreignKey
          softDeletes := target.softDeletes
          comparison := compared
          negated := existence.negated }
      load := nested.map fun join =>
        { join :=
            { name := relation.name
              cardinality := relation.cardinality
              table := target.table
              localKey := relation.localKey
              foreignKey := relation.foreignKey
              softDeletes := target.softDeletes
              order := { column := target.primaryKey, order := .ascending }
              limit := none
              constraint := compared }
          isEmpty := existence.negated
          nested := [join] } }

/-- Add joins to those that are there, leaving out the names that are taken. -/
def addNested (nested added : List Join) : List Join :=
  nested ++ added.filter fun join => !nested.any (·.name = join.name)

/-- Take a load in: a relation that is loaded already only gains the nested joins. -/
def attach (loads : Ordered EagerLoad) (load : EagerLoad) : Ordered EagerLoad :=
  match loads.get? load.join.name with
  | none => loads.put load.join.name load
  | some present =>
      loads.put load.join.name { present with nested := addNested present.nested load.nested }

/-! ## The plan -/

/-- The conditions on the root entity itself. -/
def rootFilter (root : Entity) (filters : Request.Filters) : Predicate :=
  let filter := Predicate.and (filters.map fun entry => Predicate.equality entry.1 entry.2)
  if root.softDeletes then filter.andThen (.isNull Entity.deletedAt) else filter

/-- The keys that are not selected, each once. -/
def hiddenKeys (selected keys : List String) : List String :=
  keys.foldl (fun hidden key => if key ∈ selected ++ hidden then hidden else hidden ++ [key]) []

/-- The local keys that matching the loads needs. -/
def neededKeys (loads : List EagerLoad) : List String :=
  (loads.filter (!·.isEmpty)).map (·.join.localKey)

def compile (catalog : Catalog) (entity : String) (limits : Limits) (query : Request.Query) :
    Outcome Plan := do
  let root ← catalog.entity entity
  checkRelationLimit limits query
  checkEagerLoads limits query
  let explicit ← explicitLoads catalog root query.loads
  let resolved ← query.existences.mapM (resolveExistence catalog root)
  let loads := ((resolved.filterMap (·.load)).foldl attach explicit).map (·.2)
  let hidden :=
    match query.select with
    | some selected => hiddenKeys selected (neededKeys loads)
    | none => []
  pure
    { entity := root.name
      table := root.table
      projection := query.select.map (· ++ hidden)
      hidden
      filter := rootFilter root query.filters
      existences := resolved.map (·.condition)
      groupBy := query.groupBy.getD []
      orderBy := query.sorting.map fun entry => { column := entry.1, order := entry.2 }
      loads }

end RequestQuery.Plan
