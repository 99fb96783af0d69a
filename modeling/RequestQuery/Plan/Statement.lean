/-
# The statements of a plan

A plan has one statement for its own records, and each of its joins has one for every batch of
keys.  In the root statement the related tables are known as `r1`, `r2` and so on; in the statement
of a join the columns are those of its table.
-/
import RequestQuery.Plan.Basic
import RequestQuery.Sql.Statement

namespace RequestQuery.Plan

set_option autoImplicit false

/-- The condition of an existence clause, inside a statement about the parent's table. -/
def Existence.condition (existence : Existence) (parent knownAs : String) : Sql.Condition :=
  .hasRecord existence.negated existence.table knownAs
    (.sameAs (.qualified knownAs existence.foreignKey) (.qualified parent existence.localKey) ::
      (Sql.Condition.notDeleted existence.softDeletes (.qualified knownAs Entity.deletedAt) ++
        Sql.Condition.conjuncts (some knownAs) existence.comparison))

/-- The alias of the related table in the existence clause at an index. -/
def existenceAlias (index : Nat) : String :=
  "r" ++ Decimal.natural (index + 1)

/-- The root statement. -/
def statement (plan : Plan) : Sql.Statement :=
  .select plan.projection plan.table
    (Sql.Condition.conjuncts none plan.filter ++
      plan.existences.zipIdx.map fun item =>
        item.1.condition plan.table (existenceAlias item.2))
    plan.groupBy plan.orderBy

/-- A limit as a value: at most the greatest signed word. -/
def limitValue (limit : UInt64) : Parameter :=
  .int (Int64.ofNat (min limit.toNat 0x7FFFFFFFFFFFFFFF))

/-- The statement that fetches the related records of the parents with these keys. -/
def Join.statement (join : Join) (keys : List Parameter) : Sql.Statement :=
  .rankedLoad
    { table := join.table
      partition := .qualified join.table join.foreignKey
      order := .qualified join.table join.order.column
      direction := join.order.order
      conditions :=
        .among (.qualified join.table join.foreignKey) keys ::
          (Sql.Condition.notDeleted join.softDeletes
              (.qualified join.table Entity.deletedAt) ++
            Sql.Condition.conjuncts (some join.table) join.constraint)
      limit := join.limit.map limitValue }

end RequestQuery.Plan
