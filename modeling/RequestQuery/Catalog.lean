/-
# Catalog

The catalog says which entities there are, in which tables they live, how their records are
identified, and which relations lead from one to another.  Names are looked up, never guessed: an
entity or a relation that is not registered is a failure.  Registering a name again replaces what
it stood for.
-/
import RequestQuery.Failure

namespace RequestQuery

set_option autoImplicit false

/-! ## Relations -/

/-- How many related records one record can have. -/
inductive Cardinality where
  | many
  | one
  deriving DecidableEq, Repr, Inhabited

/-- A relation leads from the records of one entity to those of the target whose foreign key is
equal to their local key. -/
structure Relation where
  name : String
  cardinality : Cardinality
  target : String
  localKey : String
  foreignKey : String
  deriving DecidableEq, Repr, Inhabited

namespace Relation

/-- The related records hold the key. -/
def oneToMany (name target foreignKey : String) : Relation :=
  { name, cardinality := .many, target, localKey := "id", foreignKey }

/-- The record itself holds the key of its related record. -/
def manyToOne (name target localKey : String) : Relation :=
  { name, cardinality := .one, target, localKey, foreignKey := "id" }

end Relation

/-! ## Entities -/

/-- Who makes the primary key: the store counts, or a record brings its own identifier. -/
inductive KeyType where
  | integer
  | uuid
  deriving DecidableEq, Repr, Inhabited

structure Entity where
  name : String
  table : String
  primaryKey : String := "id"
  keyType : KeyType := .integer
  uuidColumn : Option String := none
  softDeletes : Bool := false
  timestamps : Bool := false
  relations : List Relation := []
  deriving DecidableEq, Repr, Inhabited

namespace Entity

/-- The column that marks a record as deleted where records are not really removed. -/
def deletedAt : String := "deleted_at"

def createdAt : String := "created_at"

def updatedAt : String := "updated_at"

/-- The column that callers identify records by. -/
def identifier (entity : Entity) : String :=
  entity.uuidColumn.getD entity.primaryKey

/-- The columns that get a generated identifier when a record comes without one. -/
def generatedColumns (entity : Entity) : List String :=
  let primary := if entity.keyType = .uuid then [entity.primaryKey] else []
  match entity.uuidColumn with
  | some column => if column ∈ primary then primary else primary ++ [column]
  | none => primary

def relation? (entity : Entity) (name : String) : Option Relation :=
  entity.relations.find? (·.name = name)

def withRelation (entity : Entity) (relation : Relation) : Entity :=
  { entity with
    relations := entity.relations.filter (·.name ≠ relation.name) ++ [relation] }

def relationsByName (entity : Entity) : List Relation :=
  entity.relations.mergeSort fun r s => r.name ≤ s.name

theorem name_of_relation? {entity : Entity} {name : String} {relation : Relation}
    (h : entity.relation? name = some relation) : relation.name = name := by
  simpa using List.find?_some h

end Entity

/-! ## Catalogs -/

structure Catalog where
  entities : List Entity := []
  deriving Inhabited

namespace Catalog

def register (catalog : Catalog) (entity : Entity) : Catalog :=
  { entities := catalog.entities.filter (·.name ≠ entity.name) ++ [entity] }

def ofList (entities : List Entity) : Catalog :=
  entities.foldl register {}

def entity? (catalog : Catalog) (name : String) : Option Entity :=
  catalog.entities.find? (·.name = name)

def entity (catalog : Catalog) (name : String) : Outcome Entity :=
  match catalog.entity? name with
  | some entity => .ok entity
  | none => Failure.raise (.unknownEntity name)

/-- A relation of an entity, with the entity that it leads to. -/
def related (catalog : Catalog) (parent : Entity) (name : String) :
    Outcome (Relation × Entity) :=
  match parent.relation? name with
  | none => Failure.raise (.unknownRelation parent.name name)
  | some relation =>
      match catalog.entity? relation.target with
      | some target => .ok (relation, target)
      | none =>
          .error
            ((Failure.of (.unknownEntity relation.target)).withOperation
              ("resolving relation " ++ parent.name ++ "." ++ name))

theorem name_of_entity? {catalog : Catalog} {name : String} {entity : Entity}
    (h : catalog.entity? name = some entity) : entity.name = name := by
  simpa using List.find?_some h

end Catalog

end RequestQuery
