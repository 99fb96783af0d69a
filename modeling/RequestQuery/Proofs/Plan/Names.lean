/-
# The names that statements are given

Every identifier in the text of a statement is a segment of one of its names.  These are the names
that the statements of plans, joins and entities are given, in the order of their text: names of the
request and of the catalog, the aliases `r1`, `r2` and so on, and the two names of a ranked load.
Nothing else is found between quotes in what is sent for an accepted query
(`identifiers?_of_accepted`, `Join.identifiers?_sql`) or for a single record
(`Entity.identifiers?_sql`); values have no part in it.
-/
import RequestQuery.Proofs.Plan.RootStatement
import RequestQuery.Proofs.Sql.Scoping
import RequestQuery.Repository.Statement

namespace RequestQuery

set_option autoImplicit false

namespace Sql.Condition

/-! ## Names of conditions -/

theorem namesOf_append (cs ds : List Condition) :
    namesOf (cs ++ ds) = namesOf cs ++ namesOf ds := by
  induction cs with
  | nil => rfl
  | cons c cs ih => rw [List.cons_append, namesOf, ih, namesOf, List.append_assoc]

theorem namesOf_eq_flatMap (cs : List Condition) : namesOf cs = cs.flatMap names := by
  induction cs with
  | nil => rfl
  | cons c cs ih => rw [namesOf, ih, List.flatMap_cons]

mutual

/-- A condition names the columns that its predicate speaks about, in the source that it is for. -/
theorem names_ofPredicate (source : Option String) :
    ∀ p : Predicate, (ofPredicate source p).names = p.columns.map (Column.of source)
  | .none => rfl
  | .equals column value => by cases value <;> rfl
  | .less _ _ | .greater _ _ | .isNull _ => rfl
  | .all members => namesOf_ofPredicates source members
  | .negation inner => names_ofPredicate source inner

theorem namesOf_ofPredicates (source : Option String) :
    ∀ ps : List Predicate,
      namesOf (ofPredicates source ps) = (Predicate.columnsOf ps).map (Column.of source)
  | [] => rfl
  | p :: ps => by
      have first := names_ofPredicate source p
      have others := namesOf_ofPredicates source ps
      simp only [ofPredicates, namesOf, Predicate.columnsOf, List.map_append, first, others]

end

theorem namesOf_conjuncts (source : Option String) (p : Predicate) :
    namesOf (conjuncts source p) = p.columns.map (Column.of source) := by
  rw [conjuncts, namesOf_ofPredicates, Predicate.columnsOf_conjuncts]

theorem namesOf_notDeleted (softDeletes : Bool) (column : Column) :
    namesOf (notDeleted softDeletes column) = if softDeletes then [column] else [] := by
  cases softDeletes <;> rfl

end Sql.Condition

open Sql

/-! ## Statements about single records -/

namespace Entity

variable (entity : Entity) (column : String) (value : Parameter) (row : Row)

/-- The columns that a record is found by. -/
def addressNames : List Column :=
  .bare column :: if entity.softDeletes then [.bare deletedAt] else []

theorem namesOf_addressed :
    Condition.namesOf (entity.addressed column value) = entity.addressNames column := by
  rw [addressed, Condition.namesOf, Condition.names_ofPredicate, Condition.namesOf_notDeleted]
  rfl

theorem names_entries :
    ((entries row).map fun entry => Column.bare entry.1) = (Ordered.names row).map .bare := by
  rw [entries, Ordered.names, List.map_map, List.map_map]
  rfl

theorem names_lookup :
    (entity.lookup column value).names = .bare entity.table :: entity.addressNames column := by
  rw [lookup, Statement.names, namesOf_addressed]

theorem names_insert :
    (entity.insert row).names = .bare entity.table :: (Ordered.names row).map .bare := by
  rw [insert, Statement.names, names_entries]

theorem names_update :
    (entity.update row column value).names =
      .bare entity.table :: ((Ordered.names row).map .bare ++ entity.addressNames column) := by
  rw [update, Statement.names, names_entries, namesOf_addressed, List.cons_append]

theorem names_delete :
    (entity.delete column value).names = [.bare entity.table, .bare column] := by
  rw [delete, Statement.names, Condition.namesOf, Condition.names_ofPredicate]
  rfl

/-- **The identifiers in statements about single records** are the segments of the table, of the
columns of the row and of those that the record is found by. -/
theorem identifiers?_sql :
    identifiers? (entity.lookup column value).sql =
        some ((.bare entity.table :: entity.addressNames column).flatMap Column.segments) ∧
      identifiers? (entity.insert row).sql =
        some ((.bare entity.table :: (Ordered.names row).map .bare).flatMap Column.segments) ∧
      identifiers? (entity.update row column value).sql =
        some ((.bare entity.table :: ((Ordered.names row).map .bare ++
          entity.addressNames column)).flatMap Column.segments) ∧
      identifiers? (entity.delete column value).sql =
        some ([.bare entity.table, .bare column].flatMap Column.segments) := by
  refine ⟨?_, ?_, ?_, ?_⟩
  · rw [Statement.identifiers?_sql, names_lookup]
  · rw [Statement.identifiers?_sql, names_insert]
  · rw [Statement.identifiers?_sql, names_update]
  · rw [Statement.identifiers?_sql, names_delete]

end Entity

namespace Plan

/-! ## Statements of joins -/

/-- The names of a join: its table, its columns in it, and the rank of its records. -/
def Join.names (join : Join) : List Column :=
  [.bare join.table, .qualified join.table join.foreignKey,
    .qualified join.table join.order.column, .bare "__quarry_rank", .bare join.table] ++
  (.qualified join.table join.foreignKey ::
    ((if join.softDeletes then [.qualified join.table Entity.deletedAt] else []) ++
      join.constraint.columns.map (.qualified join.table))) ++
  [.bare "__quarry_ranked"] ++
  (if join.limit.isSome then [.bare "__quarry_rank"] else []) ++ [.bare "__quarry_rank"]

/-- **The identifiers in the statement of a join** do not depend on its keys. -/
theorem Join.identifiers?_sql (join : Join) (keys : List Parameter) :
    identifiers? (join.statement keys).sql = some (join.names.flatMap Column.segments) := by
  rw [Statement.identifiers?_sql, statement, Statement.names, RankedLoad.names, Condition.namesOf,
    Condition.namesOf_append, Condition.namesOf_notDeleted, Condition.namesOf_conjuncts, names]
  cases join.limit <;> rfl

/-! ## The root statement -/

/-- The names of an existence clause: its own table, with the columns that relate it to the root and
those that restrict it. -/
def clauseNames (root : Entity) (knownAs : String) (directive : Request.Existence)
    (relation : Relation) (target : Entity) : List Column :=
  [.bare target.table, .bare knownAs, .qualified knownAs relation.foreignKey,
    .qualified root.table relation.localKey] ++
    (if target.softDeletes then [.qualified knownAs Entity.deletedAt] else []) ++
    (if directive.value.isSome then [.qualified knownAs target.primaryKey] else [])

/-- The names of a query and of the entities that it leads to. -/
def askedNames (root : Entity) (query : Request.Query) (hidden : List String)
    (related : List (Relation × Entity)) : List Column :=
  ((query.select.map (· ++ hidden)).getD []).map .bare ++ [.bare root.table] ++
    ((Ordered.names query.filters).map .bare ++
      (if root.softDeletes then [.bare Entity.deletedAt] else []) ++
      (query.existences.zip related).zipIdx.flatMap fun item =>
        clauseNames root ("r" ++ toString (item.2 + 1)) item.1.1 item.1.2.1 item.1.2.2) ++
    (query.groupBy.getD []).map .bare ++ (Ordered.names query.sorting).map .bare

theorem columns_compared (target : Entity) (directive : Request.Existence) :
    (compared target directive).columns =
      if directive.value.isSome then [target.primaryKey] else [] := by
  unfold compared
  cases directive.value with
  | none => rfl
  | some value => cases directive.operator <;> cases value <;> rfl

theorem names_existence (root : Entity) (index : Nat) (directive : Request.Existence)
    (relation : Relation) (target : Entity) :
    ((conditionOf relation target directive).condition root.table (existenceAlias index)).names =
      clauseNames root ("r" ++ toString (index + 1)) directive relation target := by
  simp only [existenceAlias_eq, Existence.condition, conditionOf, Condition.names,
    Condition.namesOf, Condition.namesOf_append, Condition.namesOf_notDeleted,
    Condition.namesOf_conjuncts, columns_compared, clauseNames]
  cases directive.value <;> rfl

theorem namesOf_rootConditions (root : Entity) (query : Request.Query)
    (related : List (Relation × Entity)) :
    Condition.namesOf (rootConditions root query related) =
      (Ordered.names query.filters).map .bare ++
        (if root.softDeletes then [.bare Entity.deletedAt] else []) ++
        (query.existences.zip related).zipIdx.flatMap fun item =>
          clauseNames root ("r" ++ toString (item.2 + 1)) item.1.1 item.1.2.1 item.1.2.2 := by
  have compares : ∀ entry : String × Parameter,
      (Condition.ofPredicate none (Predicate.equality entry.1 entry.2)).names =
        [.bare entry.1] := by
    rintro ⟨column, value⟩
    cases value <;> rfl
  have filters : Condition.namesOf (query.filters.map fun entry =>
      Condition.ofPredicate none (Predicate.equality entry.1 entry.2)) =
        (Ordered.names query.filters).map .bare := by
    rw [Condition.namesOf_eq_flatMap, List.flatMap_map, Ordered.names, List.map_map]
    simp only [compares]
    exact List.map_eq_flatMap.symm
  rw [rootConditions, Condition.namesOf_append, conditions_rootFilter, Condition.namesOf_append,
    filters, Condition.namesOf_notDeleted, Condition.namesOf_eq_flatMap, List.flatMap_map]
  simp only [names_existence]

/-- **The identifiers in the root statement** of an accepted query are the segments of what the query
names, and of the tables and keys of the entities that it leads to. -/
theorem identifiers?_of_accepted {catalog : Catalog} {entity : String} {limits : Limits}
    {query : Request.Query} {plan : Plan}
    (accepted : compile catalog entity limits query = .ok plan) :
    ∃ root, catalog.entity? entity = some root ∧
      ∃ related : List (Relation × Entity),
        List.Forall₂ (fun directive pair => catalog.related root directive.relation = .ok pair)
            query.existences related ∧
          identifiers? plan.statement.sql =
            some ((askedNames root query plan.hidden related).flatMap Column.segments) := by
  obtain ⟨root, found, related, leads, statement⟩ := statement_of_accepted accepted
  refine ⟨root, found, related, leads, ?_⟩
  rw [Statement.identifiers?_sql, statement, Statement.names, namesOf_rootConditions, askedNames,
    List.map_map, Ordered.names, Ordered.names, List.map_map, List.map_map]
  rfl

end Plan

end RequestQuery
