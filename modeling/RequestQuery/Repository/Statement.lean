/-
# Statements about single records

A record is addressed by the value of one column.  Where records are only marked as deleted, the
marked ones are neither found nor changed.
-/
import RequestQuery.Catalog
import RequestQuery.Record
import RequestQuery.Sql.Statement

namespace RequestQuery.Entity

set_option autoImplicit false

/-- The records whose column has a value, without the deleted ones. -/
def addressed (entity : Entity) (column : String) (value : Parameter) : List Sql.Condition :=
  Sql.Condition.ofPredicate none (.equals column value) ::
    Sql.Condition.notDeleted entity.softDeletes (.bare deletedAt)

/-- The columns of a row as values to bind. -/
def entries (row : Row) : Ordered Parameter :=
  row.map fun column => (column.1, Parameter.ofJson column.2)

def lookup (entity : Entity) (column : String) (value : Parameter) : Sql.Statement :=
  .lookup entity.table (entity.addressed column value)

def insert (entity : Entity) (row : Row) : Sql.Statement :=
  .insert entity.table (entries row)

def update (entity : Entity) (row : Row) (column : String) (value : Parameter) :
    Sql.Statement :=
  .update entity.table (entries row) (entity.addressed column value)

/-- Really remove records, whether they are marked as deleted or not. -/
def delete (entity : Entity) (column : String) (value : Parameter) : Sql.Statement :=
  .delete entity.table [Sql.Condition.ofPredicate none (.equals column value)]

end RequestQuery.Entity
