/-
# Repositories

A repository gives access to the records of one entity.  Records are addressed by the identifier of
the entity.  A new record gets the identifiers and timestamps that it comes without and is read back
after it was inserted; a change is made only to a record that is there, and the record is read again
afterwards.

Identifiers and the time come from outside (`Supply`), so each operation is a function of what it is
given.
-/
import RequestQuery.Plan.Compile
import RequestQuery.Plan.Run
import RequestQuery.Repository.Statement

namespace RequestQuery

set_option autoImplicit false

structure Repository where
  catalog : Catalog
  entity : Entity
  limits : Limits := {}

/-- What an operation takes from its surroundings: a new identifier for a column, and the time. -/
structure Supply where
  identifier : String → String
  now : String

namespace Repository

/-- The repository of an entity of a catalog. -/
def ofCatalog (catalog : Catalog) (name : String) : Outcome Repository := do
  let entity ← catalog.entity name
  pure { catalog, entity }

/-! ## Columns of a row -/

/-- A value that counts as not given: none at all, null, or an empty text. -/
def isMissing : Option Json.Value → Bool
  | none | some .null => true
  | some (.string s) => s.isEmpty
  | some _ => false

/-- The value of a column as a parameter, if it is given. -/
def given? (row : Row) (column : String) : Option Parameter :=
  if isMissing (row.get? column) then none else (row.get? column).map Parameter.ofJson

/-- Set a column to a text unless it has a value. -/
def fill (text : String) (row : Row) (column : String) : Row :=
  if isMissing (row.get? column) then Ordered.put row column (.string text) else row

/-- A new row with identifiers and timestamps. -/
def completed (entity : Entity) (supply : Supply) (row : Row) : Row :=
  let row := entity.generatedColumns.foldl (fun row c => fill (supply.identifier c) row c) row
  if entity.timestamps then
    [Entity.createdAt, Entity.updatedAt].foldl (fill supply.now) row
  else row

/-! ## Many records -/

def plan (repository : Repository) (query : Request.Query) : Outcome Plan :=
  (Plan.compile repository.catalog repository.entity.name repository.limits query).mapError
    fun failure => failure.withOperation ("compiling query for " ++ repository.entity.name)

def findMany (repository : Repository) (query : Request.Query) : Session (List Record) := do
  let plan ← Session.ofOutcome (repository.plan query)
  plan.run

/-! ## Single records -/

def notFound (entity : Entity) : Failure.Cause :=
  .recordNotFound entity.name

/-- The first record whose column has a value. -/
def first? (entity : Entity) (column : String) (value : Parameter) : Session (Option Record) := do
  let rows ← Session.rows (entity.lookup column value)
  pure (rows.head?.map Record.ofRow)

def find (repository : Repository) (id : Parameter) : Session Record := do
  let entity := repository.entity
  let record ← first? entity entity.identifier id
  Session.found (notFound entity) record

/-- How an inserted row is addressed: by its identifier, by its primary key, or by the row number
where the store has counted. -/
def insertedKey (entity : Entity) (row : Row) (rowNumber : Int64) : Outcome (String × Parameter) :=
  match given? row entity.identifier, given? row entity.primaryKey with
  | some value, _ => .ok (entity.identifier, value)
  | none, some value => .ok (entity.primaryKey, value)
  | none, none =>
      match entity.keyType with
      | .integer => .ok (entity.primaryKey, .int rowNumber)
      | .uuid => Failure.raise (.missingKey entity.name entity.primaryKey)

def create (repository : Repository) (supply : Supply) (row : Row) : Session Record := do
  let entity := repository.entity
  let row := completed entity supply row
  let rowNumber ← Session.rowNumber (entity.insert row)
  let (column, value) ← Session.ofOutcome (insertedKey entity row rowNumber)
  let record ← first? entity column value
  Session.found (.internal ("inserted " ++ entity.name ++ " record could not be read back")) record

/-- Send a change that has to reach a record. -/
def change (entity : Entity) (statement : Sql.Statement) : Session Unit := do
  let count ← Session.affected statement
  if count = 0 then Session.raise (notFound entity) else pure ()

/-- The change of a record; a change of nothing writes nothing. -/
def update (repository : Repository) (supply : Supply) (id : Parameter) (row : Row) :
    Session Record := do
  let entity := repository.entity
  let current ← first? entity entity.identifier id
  let current ← Session.found (notFound entity) current
  if row.isEmpty then
    pure current
  else
    let row := if entity.timestamps then fill supply.now row Entity.updatedAt else row
    change entity (entity.update row entity.identifier id)
    let record ← first? entity entity.identifier ((given? row entity.identifier).getD id)
    Session.found (notFound entity) record

/-- The columns that mark a record as deleted. -/
def deletionRow (entity : Entity) (now : String) : Row :=
  (Entity.deletedAt, .string now) ::
    (if entity.timestamps then [(Entity.updatedAt, .string now)] else [])

def delete (repository : Repository) (supply : Supply) (id : Parameter) : Session Unit :=
  let entity := repository.entity
  change entity
    (if entity.softDeletes then
      entity.update (deletionRow entity supply.now) entity.identifier id
    else entity.delete entity.identifier id)

end Repository

end RequestQuery
