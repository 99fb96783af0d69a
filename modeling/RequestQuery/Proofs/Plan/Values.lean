/-
# Values never decide what is sent

A query in outline keeps its names, its directives and its order, and of each value whether it is
null.  Compiling knows no more than that: the plan of a query in outline is the plan of the query in
outline (`compile_outline`), and what is wrong with the one is wrong with the other.  So queries
that differ in values alone get the same statements, and their values are bound in the order in
which they were given (`values_bound`).
-/
import RequestQuery.Proofs.Plan.Acceptance
import RequestQuery.Proofs.Plan.RootStatement
import RequestQuery.Proofs.Sql.Values

namespace RequestQuery

set_option autoImplicit false

theorem Parameter.outline_eq_iff {p q : Parameter} : p.outline = q.outline ↔ p.isNull = q.isNull := by
  unfold outline
  cases p.isNull <;> cases q.isNull <;> simp

/-! ## Statements about single records -/

namespace Entity

open Sql

variable (entity : Entity) (column : String)

/-- The value that a record is addressed by, unless it is null. -/
def addressValues (id : Parameter) : List Parameter :=
  if id.isNull then [] else [id]

theorem blank_address {id other : Parameter} (same : id.isNull = other.isNull) :
    (Condition.ofPredicate none (.equals column id)).blank =
      (Condition.ofPredicate none (.equals column other)).blank := by
  rw [← Condition.blank_ofPredicate none (.equals column id),
    ← Condition.blank_ofPredicate none (.equals column other), Predicate.outline,
    Predicate.outline, Parameter.outline_eq_iff.2 same]

theorem blankAll_addressed {id other : Parameter} (same : id.isNull = other.isNull) :
    Condition.blankAll (entity.addressed column id) =
      Condition.blankAll (entity.addressed column other) := by
  rw [addressed, addressed, Condition.blankAll, Condition.blankAll, blank_address column same]

theorem valuesIn_addressed (id : Parameter) :
    Condition.valuesIn (entity.addressed column id) = addressValues id := by
  rw [addressed, Condition.valuesIn, Condition.values_ofPredicate, Condition.valuesIn_notDeleted,
    List.append_nil]
  rfl

theorem blank_entries {row other : Row} (same : Ordered.names row = Ordered.names other) :
    (entries row).map (fun entry => (entry.1, Parameter.null)) =
      (entries other).map (fun entry => (entry.1, Parameter.null)) := by
  have named : ∀ row : Row, (entries row).map (fun entry => (entry.1, Parameter.null)) =
      (Ordered.names row).map fun name => (name, Parameter.null) := by
    intro row
    rw [entries, Ordered.names, List.map_map, List.map_map]
    rfl
  rw [named, named, same]

theorem values_entries (row : Row) :
    (entries row).map (·.2) = row.map fun cell => Parameter.ofJson cell.2 := by
  rw [entries, List.map_map]
  rfl

theorem sql_lookup {id other : Parameter} (same : id.isNull = other.isNull) :
    (entity.lookup column id).sql = (entity.lookup column other).sql :=
  Statement.sql_eq_of_blank
    (congrArg (Statement.lookup entity.table) (blankAll_addressed entity column same))

theorem parameters_lookup (id : Parameter) :
    (entity.lookup column id).parameters = addressValues id :=
  (Statement.parameters_eq_values _).trans (valuesIn_addressed entity column id)

theorem sql_insert {row other : Row} (same : Ordered.names row = Ordered.names other) :
    (entity.insert row).sql = (entity.insert other).sql :=
  Statement.sql_eq_of_blank (congrArg (Statement.insert entity.table) (blank_entries same))

theorem parameters_insert (row : Row) :
    (entity.insert row).parameters = row.map fun cell => Parameter.ofJson cell.2 :=
  (Statement.parameters_eq_values _).trans (values_entries row)

theorem sql_update {row other : Row} {id another : Parameter}
    (columns : Ordered.names row = Ordered.names other) (same : id.isNull = another.isNull) :
    (entity.update row column id).sql = (entity.update other column another).sql :=
  Statement.sql_eq_of_blank
    (congrArg₂ (Statement.update entity.table) (blank_entries columns)
      (blankAll_addressed entity column same))

theorem parameters_update (row : Row) (id : Parameter) :
    (entity.update row column id).parameters =
      (row.map fun cell => Parameter.ofJson cell.2) ++ addressValues id := by
  rw [Statement.parameters_eq_values, update, Statement.values, values_entries,
    valuesIn_addressed]

theorem sql_delete {id other : Parameter} (same : id.isNull = other.isNull) :
    (entity.delete column id).sql = (entity.delete column other).sql := by
  refine Statement.sql_eq_of_blank (congrArg (Statement.delete entity.table) ?_)
  simp only [Condition.blankAll, blank_address column same]

theorem parameters_delete (id : Parameter) :
    (entity.delete column id).parameters = addressValues id := by
  rw [Statement.parameters_eq_values, delete, Statement.values, Condition.valuesIn,
    Condition.values_ofPredicate]
  exact List.append_nil _

/-- **An insertion** shows the names of its columns, and it binds what is to stand in them. -/
theorem insert_of_names {row other : Row} (same : Ordered.names row = Ordered.names other) :
    (entity.insert row).sql = (entity.insert other).sql ∧
      (entity.insert row).parameters = row.map fun cell => Parameter.ofJson cell.2 :=
  ⟨entity.sql_insert same, entity.parameters_insert row⟩

/-- **What is said of one record** shows of its identifier only whether it is null, and binds it
unless it is. -/
theorem addressed_of_isNull {id another : Parameter} (same : id.isNull = another.isNull) :
    (entity.lookup column id).sql = (entity.lookup column another).sql ∧
      (entity.lookup column id).parameters = addressValues id ∧
      (entity.delete column id).sql = (entity.delete column another).sql ∧
      (entity.delete column id).parameters = addressValues id ∧
      ∀ row other : Row, Ordered.names row = Ordered.names other →
        (entity.update row column id).sql = (entity.update other column another).sql ∧
        (entity.update row column id).parameters =
          (row.map fun cell => Parameter.ofJson cell.2) ++ addressValues id :=
  ⟨entity.sql_lookup column same, entity.parameters_lookup column id,
    entity.sql_delete column same, entity.parameters_delete column id,
    fun row _ columns => ⟨entity.sql_update column columns same,
      entity.parameters_update column row id⟩⟩

end Entity

namespace Plan

open Sql

/-! ## Statements of joins -/

namespace Join

def outline (join : Join) : Join :=
  { join with constraint := join.constraint.outline }

/-- Of its keys the statement of a join shows only how many there are. -/
theorem sql_statement {join other : Join} (alike : join.outline = other.outline)
    {keys others : List Parameter} (number : keys.length = others.length) :
    (join.statement keys).sql = (other.statement others).sql := by
  have blanked : ∀ (join : Join) (keys : List Parameter), (join.statement keys).blank =
      (join.outline.statement (List.replicate keys.length .null)).blank := by
    intro join keys
    simp only [statement, Statement.blank, RankedLoad.blank, Condition.blankAll,
      Condition.blankAll_append, Condition.blank, outline, Condition.blankAll_conjuncts,
      List.map_const', List.length_replicate]
  refine Statement.sql_eq_of_blank ?_
  rw [blanked join, blanked other, alike, number]

/-- A limit is bound as a signed word, so the greatest of those is the most that can be asked for. -/
theorem parameters_statement (join : Join) (keys : List Parameter) :
    (join.statement keys).parameters =
      keys ++ join.constraint.values ++
        (join.limit.map fun limit =>
          Parameter.int (Int64.ofNat (min limit.toNat (Nat.pow 2 63 - 1)))).toList := by
  rw [Statement.parameters_eq_values, statement, Statement.values, Condition.valuesIn,
    Condition.valuesIn_append, Condition.valuesIn_notDeleted, Condition.valuesIn_conjuncts]
  cases join.limit <;> rfl

theorem prefix_parameters (join : Join) (keys : List Parameter) :
    keys <+: (join.statement keys).parameters := by
  rw [parameters_statement, List.append_assoc]
  exact List.prefix_append keys _

/-- **The statement of a join** shows how many keys it has, and binds them before the value of its
constraint and its limit. -/
theorem statement_of_outline {join other : Join} (alike : join.outline = other.outline)
    {keys others : List Parameter} (number : keys.length = others.length) :
    (join.statement keys).sql = (other.statement others).sql ∧
      (join.statement keys).parameters =
        keys ++ join.constraint.values ++
          (join.limit.map fun limit =>
            Parameter.int (Int64.ofNat (min limit.toNat (Nat.pow 2 63 - 1)))).toList :=
  ⟨sql_statement alike number, parameters_statement join keys⟩

end Join

end Plan

/-! ## Queries in outline -/

namespace Predicate

theorem outline_equality (column : String) (value : Parameter) :
    (equality column value).outline = equality column value.outline := by
  cases value <;> rfl

theorem isNone_outline (p : Predicate) : p.outline.isNone = p.isNone := by
  cases p <;> rfl

theorem outline_and (ps : List Predicate) : (and ps).outline = and (ps.map outline) := by
  have kept : (ps.map outline).filter (fun p => !p.isNone) =
      (ps.filter fun p => !p.isNone).map outline := by
    rw [List.filter_map]
    congr 1
    exact List.filter_congr fun p _ => by rw [Function.comp_apply, isNone_outline]
  unfold and
  rw [kept]
  generalize (ps.filter fun p => !p.isNone) = said
  rcases said with _ | ⟨p, _ | ⟨q, rest⟩⟩
  · rfl
  · rfl
  · simp only [List.map_cons, outline, outlineAll, outlineAll_eq_map]

theorem outline_andThen (p q : Predicate) :
    (p.andThen q).outline = p.outline.andThen q.outline := by
  have appended : ∀ ps : List Predicate, outlineAll (ps ++ [q]) = outlineAll ps ++ [q.outline] := by
    intro ps
    rw [outlineAll_eq_map, outlineAll_eq_map, List.map_append, List.map_singleton]
  cases p with
  | none => rfl
  | all members => cases q <;> first | rfl | exact congrArg Predicate.all (appended members)
  | _ => cases q <;> rfl

end Predicate

namespace Request

def Existence.outline (existence : Existence) : Existence :=
  { existence with value := existence.value.map Parameter.outline }

/-- A query of whose values is only left which of them are null. -/
def Query.outline (query : Query) : Query :=
  { query with
    filters := query.filters.map fun entry => (entry.1, entry.2.outline)
    existences := query.existences.map Existence.outline }

/-- Does an operator ask for equality, so that null asks for null? -/
def Operator.testsEquality : Operator → Bool
  | .equal | .other _ => true
  | .less | .greater => false

/-- The value of an existence directive, if it is one to compare with. -/
def Existence.boundValues (existence : Existence) : List Parameter :=
  match existence.value with
  | none => []
  | some value => if value.isNull && existence.operator.testsEquality then [] else [value]

/-- The values of a query in the order in which they are given, without those that only ask for
null. -/
def Query.boundValues (query : Query) : List Parameter :=
  (query.filters.map (·.2)).filter (!·.isNull) ++ query.existences.flatMap Existence.boundValues

end Request

namespace Plan

open Sql

variable {catalog : Catalog}

theorem directives_outline (query : Request.Query) : directives query.outline = directives query := by
  rw [directives, directives, Request.Query.outline, List.filterMap_map]
  rfl

/-- What a query has to meet has nothing to do with its values. -/
theorem requirements_outline (catalog : Catalog) (entity : String) (limits : Limits)
    (query : Request.Query) :
    requirements catalog entity limits query.outline = requirements catalog entity limits query := by
  have asked : query.outline.loads ++ query.outline.existences.filterMap (·.load) =
      query.loads ++ query.existences.filterMap (·.load) := directives_outline query
  have existences : ∀ root, query.outline.existences.flatMap (existenceRequirements catalog root) =
      query.existences.flatMap (existenceRequirements catalog root) := by
    intro root
    rw [Request.Query.outline, List.flatMap_map]
    rfl
  simp only [requirements, limitRequirements, directiveRequirements, asked, existences]
  rfl

/-! ## Plans in outline -/

def EagerLoad.outline (load : EagerLoad) : EagerLoad :=
  { load with join := load.join.outline }

def Existence.outline (existence : Existence) : Existence :=
  { existence with comparison := existence.comparison.outline }

def ResolvedExistence.outline (resolved : ResolvedExistence) : ResolvedExistence where
  condition := resolved.condition.outline
  load := resolved.load.map EagerLoad.outline

def outline (plan : Plan) : Plan :=
  { plan with
    filter := plan.filter.outline
    existences := plan.existences.map Existence.outline
    loads := plan.loads.map EagerLoad.outline }

theorem outline_comparison (operator : Request.Operator) (column : String) (value : Parameter) :
    (comparison operator column value).outline = comparison operator column value.outline := by
  cases operator <;> first | rfl | exact Predicate.outline_equality column value

theorem outline_compared (target : Entity) (directive : Request.Existence) :
    (compared target directive).outline = compared target directive.outline := by
  unfold compared Request.Existence.outline
  cases directive.value with
  | none => rfl
  | some value => exact outline_comparison directive.operator target.primaryKey value

theorem outline_rootFilter (root : Entity) (filters : Request.Filters) :
    (rootFilter root filters).outline =
      rootFilter root (filters.map fun entry => (entry.1, entry.2.outline)) := by
  have compares : (Predicate.and (filters.map fun entry =>
      Predicate.equality entry.1 entry.2)).outline = Predicate.and
        ((filters.map fun entry => (entry.1, entry.2.outline)).map fun entry =>
          Predicate.equality entry.1 entry.2) := by
    rw [Predicate.outline_and, List.map_map, List.map_map]
    congr 1
    exact List.map_congr_left fun entry _ => Predicate.outline_equality entry.1 entry.2
  unfold rootFilter
  cases root.softDeletes with
  | false => exact compares
  | true =>
      simp only [if_true]
      rw [Predicate.outline_andThen, compares]
      rfl

theorem resolveExistence_outline {root : Entity} {directive : Request.Existence}
    {resolved : ResolvedExistence}
    (accepted : resolveExistence catalog root directive = .ok resolved) :
    resolveExistence catalog root directive.outline = .ok resolved.outline := by
  obtain ⟨relation, target, nested, related, joined, rfl⟩ := resolveExistence_eq_ok_iff.1 accepted
  refine resolveExistence_eq_ok_iff.2 ⟨relation, target, nested, related, joined, ?_⟩
  have compares := outline_compared target directive
  have condition : (conditionOf relation target directive).outline =
      conditionOf relation target directive.outline := by
    simp only [Existence.outline, conditionOf, compares]
    rfl
  have load : ∀ join, (scopedLoad relation target directive join).outline =
      scopedLoad relation target directive.outline join := by
    intro join
    simp only [EagerLoad.outline, Join.outline, scopedLoad, compares]
    rfl
  simp only [ResolvedExistence.outline, condition, Option.map_map, Function.comp_def, load]

/-- Explicit loads have no constraint that could hold a value. -/
theorem constraint_explicitLoads {root : Entity} {asked : List Request.Load}
    {explicit : Ordered EagerLoad} (accepted : explicitLoads catalog root asked = .ok explicit) :
    ∀ entry ∈ explicit, entry.2.join.constraint = .none := by
  intro entry member
  obtain ⟨joins, joined, made⟩ := Outcome.bind_eq_ok_iff.1 accepted
  rw [← Outcome.pure_eq_ok_iff.1 made] at member
  obtain ⟨join, present, rfl⟩ := List.mem_map.1 (Ordered.mem_ofList member)
  obtain ⟨load, _, asks⟩ := Outcome.exists_of_mem_mapM joined present
  obtain ⟨_, _, _, _, _, rfl⟩ := joinOf_eq_ok_iff.1 asks
  rfl

theorem EagerLoad.outline_of_constraint {load : EagerLoad}
    (unconstrained : load.join.constraint = .none) : load.outline = load := by
  have same : load.join.constraint.outline = load.join.constraint := by
    rw [unconstrained]
    rfl
  rw [outline, Join.outline, same]

/-- The loads of a plan with their names, in outline. -/
def outlines (loads : Ordered EagerLoad) : Ordered EagerLoad :=
  loads.map fun entry => (entry.1, entry.2.outline)

theorem attach_outline (loads : Ordered EagerLoad) (load : EagerLoad) :
    attach (outlines loads) load.outline = outlines (attach loads load) := by
  have lookup : (outlines loads).get? load.outline.join.name =
      (loads.get? load.join.name).map EagerLoad.outline := Ordered.get?_map _ _ _
  unfold attach
  rw [lookup]
  cases loads.get? load.join.name with
  | none => exact Ordered.put_map EagerLoad.outline loads load.join.name load
  | some present =>
      exact Ordered.put_map EagerLoad.outline loads load.join.name
        { present with nested := addNested present.nested load.nested }

theorem mergedLoads_outline (explicit : Ordered EagerLoad) (resolved : List ResolvedExistence) :
    mergedLoads (outlines explicit) (resolved.map ResolvedExistence.outline) =
      outlines (mergedLoads explicit resolved) := by
  have brought : (resolved.map ResolvedExistence.outline).filterMap (·.load) =
      (resolved.filterMap (·.load)).map EagerLoad.outline := by
    rw [List.filterMap_map, List.map_filterMap]
    rfl
  rw [mergedLoads, mergedLoads, brought]
  generalize resolved.filterMap (·.load) = items
  induction items generalizing explicit with
  | nil => rfl
  | cons load items ih =>
      rw [List.map_cons, List.foldl_cons, List.foldl_cons, attach_outline, ih]

theorem neededKeys_outline (loads : List EagerLoad) :
    neededKeys (loads.map EagerLoad.outline) = neededKeys loads := by
  rw [neededKeys, neededKeys, List.filter_map, List.map_map]
  rfl

theorem assembled_outline (root : Entity) (query : Request.Query) (loads : List EagerLoad)
    (existences : List Existence) :
    assembled root query.outline (loads.map EagerLoad.outline)
        (existences.map Existence.outline) =
      (assembled root query loads existences).outline := by
  simp only [assembled, outline, neededKeys_outline, outline_rootFilter]
  rfl

/-- **Compiling looks through the values.** -/
theorem compile_outline {entity : String} {limits : Limits} {query : Request.Query} {plan : Plan}
    (accepted : compile catalog entity limits query = .ok plan) :
    compile catalog entity limits query.outline = .ok plan.outline := by
  obtain ⟨root, explicit, resolved, found, few, small, loaded, directives, rfl⟩ :=
    compile_eq_ok_iff.1 accepted
  refine compile_eq_ok_iff.2 ⟨root, explicit, resolved.map ResolvedExistence.outline, found,
    ?_, ?_, loaded, ?_, ?_⟩
  · rwa [checkRelationLimit, directives_outline]
  · rwa [checkEagerLoads, directives_outline]
  · rw [Request.Query.outline, List.forall₂_map_left_iff, List.forall₂_map_right_iff]
    exact directives.imp fun _ _ => resolveExistence_outline
  · have same : outlines explicit = explicit := by
      refine (List.map_congr_left fun entry member => ?_).trans (List.map_id explicit)
      rw [EagerLoad.outline_of_constraint (constraint_explicitLoads loaded entry member)]
      rfl
    have merged := mergedLoads_outline explicit resolved
    rw [same] at merged
    rw [merged, ← assembled_outline, outlines, List.map_map, List.map_map, List.map_map,
      List.map_map]
    rfl

/-! ## The root statement -/

theorem blank_condition (existence : Existence) (parent knownAs : String) :
    (existence.outline.condition parent knownAs).blank =
      (existence.condition parent knownAs).blank := by
  simp only [Existence.condition, Existence.outline, Condition.blank, Condition.blankAll,
    Condition.blankAll_append, Condition.blankAll_conjuncts]

theorem values_condition (existence : Existence) (parent knownAs : String) :
    (existence.condition parent knownAs).values = existence.comparison.values := by
  simp only [Existence.condition, Condition.values, Condition.valuesIn, Condition.valuesIn_append,
    Condition.valuesIn_notDeleted, Condition.valuesIn_conjuncts, List.nil_append]

theorem sql_statement {plan other : Plan} (alike : plan.outline = other.outline) :
    plan.statement.sql = other.statement.sql := by
  have blanked : ∀ plan : Plan, plan.statement.blank = plan.outline.statement.blank := by
    intro plan
    simp only [statement, outline, Statement.blank, Condition.blankAll_append,
      Condition.blankAll_conjuncts, Condition.blankAll_eq_map (List.map _ _), List.zipIdx_map,
      List.map_map]
    congr 2
    exact List.map_congr_left fun item _ => (blank_condition item.1 _ _).symm
  refine Statement.sql_eq_of_blank ?_
  rw [blanked plan, blanked other, alike]

theorem parameters_statement (plan : Plan) :
    plan.statement.parameters =
      plan.filter.values ++ plan.existences.flatMap (·.comparison.values) := by
  have clauses : ∀ item : Existence × Nat,
      (item.1.condition plan.table (existenceAlias item.2)).values =
        item.1.comparison.values := fun item => values_condition item.1 _ _
  have numbered : plan.existences.zipIdx.flatMap (fun item => item.1.comparison.values) =
      plan.existences.flatMap (·.comparison.values) := by
    conv_rhs => rw [← List.zipIdx_map_fst 0 plan.existences, List.flatMap_map]
  rw [Statement.parameters_eq_values, statement, Statement.values, Condition.valuesIn_append,
    Condition.valuesIn_conjuncts, Condition.valuesIn_eq_flatMap, List.flatMap_map]
  simp only [clauses, numbered]

theorem values_equality (column : String) (value : Parameter) :
    (Predicate.equality column value).values = if value.isNull then [] else [value] := by
  cases value <;> rfl

theorem values_compared (target : Entity) (directive : Request.Existence) :
    (compared target directive).values = directive.boundValues := by
  unfold compared Request.Existence.boundValues
  cases directive.value with
  | none => rfl
  | some value =>
      cases directive.operator with
      | less | greater => simp [comparison, Request.Operator.testsEquality, Predicate.values]
      | equal | other _ => simp [comparison, Request.Operator.testsEquality, values_equality]

theorem values_rootFilter (root : Entity) (filters : Request.Filters) :
    (rootFilter root filters).values = (filters.map (·.2)).filter (!·.isNull) := by
  rw [← Condition.valuesIn_conjuncts none, conditions_rootFilter, Condition.valuesIn_append,
    Condition.valuesIn_notDeleted, List.append_nil, Condition.valuesIn_eq_flatMap,
    List.flatMap_map]
  simp only [Condition.values_ofPredicate, values_equality]
  induction filters with
  | nil => rfl
  | cons entry filters ih =>
      rw [List.flatMap_cons, ih, List.map_cons, List.filter_cons]
      cases entry.2.isNull <;> rfl

theorem values_resolved {root : Entity} {directives : List Request.Existence}
    {items : List ResolvedExistence}
    (resolved : List.Forall₂
      (fun directive item => resolveExistence catalog root directive = .ok item)
      directives items) :
    (items.map (·.condition)).flatMap (·.comparison.values) =
      directives.flatMap Request.Existence.boundValues := by
  induction resolved with
  | nil => rfl
  | cons accepted _ ih =>
      obtain ⟨relation, target, nested, _, _, rfl⟩ := resolveExistence_eq_ok_iff.1 accepted
      rw [List.map_cons, List.flatMap_cons, List.flatMap_cons, ih]
      exact congrArg (· ++ _) (values_compared target _)

/-- **The root statement binds the values of the query**, in order. -/
theorem parameters_of_accepted {entity : String} {limits : Limits} {query : Request.Query}
    {plan : Plan} (accepted : compile catalog entity limits query = .ok plan) :
    plan.statement.parameters = query.boundValues := by
  obtain ⟨root, explicit, resolved, _, _, _, _, directives, rfl⟩ := compile_eq_ok_iff.1 accepted
  rw [parameters_statement]
  exact congrArg₂ (· ++ ·) (values_rootFilter root query.filters) (values_resolved directives)

/-! ## Two queries -/

/-- The constraint of a join is absent, or it asks for null, or it compares a column with one value;
only what is not null can be asked to be equal. -/
def Join.Compares (join : Join) : Prop :=
  match join.constraint with
  | .none | .isNull _ | .less _ _ | .greater _ _ => True
  | .equals _ value => value.isNull = false
  | .all _ | .negation _ => False

theorem attach_compares {loads : Ordered EagerLoad} {load : EagerLoad}
    (present : ∀ entry ∈ loads, entry.2.join.Compares) (added : load.join.Compares) :
    ∀ entry ∈ attach loads load, entry.2.join.Compares := by
  intro entry member
  unfold attach at member
  cases found : loads.get? load.join.name with
  | none =>
      rw [found] at member
      rcases Ordered.mem_put member with rfl | old
      · exact added
      · exact present entry old
  | some before =>
      rw [found] at member
      rcases Ordered.mem_put member with rfl | old
      · have kept : before.join.Compares := present _ (Ordered.mem_of_get? found)
        exact kept
      · exact present entry old

theorem compares_scopedLoad (relation : Relation) (target : Entity)
    (directive : Request.Existence) (nested : Join) :
    (scopedLoad relation target directive nested).join.Compares := by
  simp only [Join.Compares, scopedLoad, compared]
  cases directive.value with
  | none => trivial
  | some value => cases directive.operator <;> cases value <;> trivial

theorem compares_mergedLoads {root : Entity} {loads : Ordered EagerLoad}
    (present : ∀ entry ∈ loads, entry.2.join.Compares) {directives : List Request.Existence}
    {items : List ResolvedExistence}
    (resolved : List.Forall₂
      (fun directive item => resolveExistence catalog root directive = .ok item)
      directives items) :
    ∀ entry ∈ mergedLoads loads items, entry.2.join.Compares := by
  unfold mergedLoads
  induction resolved generalizing loads with
  | nil => exact present
  | cons accepted _ ih =>
      obtain ⟨relation, target, nested, _, _, rfl⟩ := resolveExistence_eq_ok_iff.1 accepted
      cases nested with
      | none => exact ih present
      | some join => exact ih (attach_compares present (compares_scopedLoad ..))

/-- The constraint of a load comes from one existence directive. -/
theorem compares_of_accepted {entity : String} {limits : Limits} {query : Request.Query}
    {plan : Plan} (accepted : compile catalog entity limits query = .ok plan) :
    ∀ load ∈ plan.loads, load.join.Compares := by
  obtain ⟨root, explicit, resolved, _, _, _, loaded, directives, rfl⟩ :=
    compile_eq_ok_iff.1 accepted
  intro load member
  obtain ⟨entry, kept, rfl⟩ := List.mem_map.1 member
  have unconstrained : ∀ entry ∈ explicit, entry.2.join.Compares :=
    fun entry member => by
      rw [Join.Compares, constraint_explicitLoads loaded entry member]
      trivial
  exact compares_mergedLoads unconstrained directives entry kept

/-- Queries that are alike but for their values are rejected alike or get plans that are alike but
for their values. -/
theorem compile_alike (catalog : Catalog) (entity : String) (limits : Limits)
    {query other : Request.Query} (alike : query.outline = other.outline) :
    (∃ failure, compile catalog entity limits query = .error failure ∧
        compile catalog entity limits other = .error failure) ∨
      ∃ plan plan', compile catalog entity limits query = .ok plan ∧
        compile catalog entity limits other = .ok plan' ∧ plan.outline = plan'.outline := by
  have required : requirements catalog entity limits other =
      requirements catalog entity limits query := by
    rw [← requirements_outline, ← alike, requirements_outline]
  have depends := depends_compile catalog entity limits query
  have also := depends_compile catalog entity limits other
  rw [required] at also
  cases compiled : compile catalog entity limits query with
  | error failure =>
      have rejected := also.eq_error_iff.2 (depends.violated failure compiled)
      exact .inl ⟨failure, rfl, rejected⟩
  | ok plan =>
      obtain ⟨plan', accepted⟩ := also.exists_ok_iff.2 (depends.met plan compiled)
      have outlines := compile_outline compiled
      rw [alike, compile_outline accepted] at outlines
      exact .inr ⟨plan, plan', rfl, accepted, (Except.ok.inj outlines).symm⟩

/-- **The root statement** of a query shows nothing of its values and binds them, and the loads that
follow it are alike but for the values in their constraints. -/
theorem statements_of_outline (catalog : Catalog) (entity : String) (limits : Limits)
    {query other : Request.Query} (alike : query.outline = other.outline) :
    (∃ failure, compile catalog entity limits query = .error failure ∧
        compile catalog entity limits other = .error failure) ∨
      ∃ plan plan', compile catalog entity limits query = .ok plan ∧
        compile catalog entity limits other = .ok plan' ∧
        plan.statement.sql = plan'.statement.sql ∧
        plan.statement.parameters = query.boundValues ∧
        plan'.statement.parameters = other.boundValues ∧
        plan.loads.map EagerLoad.outline = plan'.loads.map EagerLoad.outline ∧
        ∀ load ∈ plan.loads, load.join.Compares := by
  rcases compile_alike catalog entity limits alike with
    rejected | ⟨plan, plan', accepted, also, outlines⟩
  · exact .inl rejected
  · exact .inr ⟨plan, plan', accepted, also, sql_statement outlines,
      parameters_of_accepted accepted, parameters_of_accepted also,
      congrArg Plan.loads outlines, compares_of_accepted accepted⟩

/-- **Values never influence the text of a statement**, and they are bound in the order in which
they are given. -/
theorem values_bound (catalog : Catalog) (entity : Entity) (name : String) (limits : Limits) :
    (∀ query other : Request.Query, query.outline = other.outline →
      (∃ failure, compile catalog name limits query = .error failure ∧
          compile catalog name limits other = .error failure) ∨
        ∃ plan plan', compile catalog name limits query = .ok plan ∧
          compile catalog name limits other = .ok plan' ∧
          plan.statement.sql = plan'.statement.sql ∧
          plan.statement.parameters = query.boundValues ∧
          plan'.statement.parameters = other.boundValues ∧
          plan.loads.map EagerLoad.outline = plan'.loads.map EagerLoad.outline ∧
          ∀ load ∈ plan.loads, load.join.Compares) ∧
      (∀ (join other : Join) (keys others : List Parameter), join.outline = other.outline →
        keys.length = others.length →
          (join.statement keys).sql = (other.statement others).sql ∧
          (join.statement keys).parameters =
            keys ++ join.constraint.values ++
              (join.limit.map fun limit =>
                Parameter.int (Int64.ofNat (min limit.toNat (Nat.pow 2 63 - 1)))).toList) ∧
      (∀ row other : Row, Ordered.names row = Ordered.names other →
        (entity.insert row).sql = (entity.insert other).sql ∧
        (entity.insert row).parameters = row.map fun cell => Parameter.ofJson cell.2) ∧
      ∀ (column : String) (id another : Parameter), id.isNull = another.isNull →
        (entity.lookup column id).sql = (entity.lookup column another).sql ∧
        (entity.lookup column id).parameters = Entity.addressValues id ∧
        (entity.delete column id).sql = (entity.delete column another).sql ∧
        (entity.delete column id).parameters = Entity.addressValues id ∧
        ∀ row other : Row, Ordered.names row = Ordered.names other →
          (entity.update row column id).sql = (entity.update other column another).sql ∧
          (entity.update row column id).parameters =
            (row.map fun cell => Parameter.ofJson cell.2) ++ Entity.addressValues id :=
  ⟨fun _ _ alike => statements_of_outline catalog name limits alike,
    fun _ _ _ _ alike number => Join.statement_of_outline alike number,
    fun _ _ same => entity.insert_of_names same,
    fun column _ _ same => entity.addressed_of_isNull column same⟩

/-- A title that tries to be a statement is bound like any other, in a query, a row and an
identifier; the value of a constraint comes after the keys and a limit after that, as a signed
word. -/
theorem values_bound_posts :
    let post : Entity :=
      { name := "Post", table := "posts", softDeletes := true,
        relations := [.oneToMany "comments" "Comment" "post_id"] }
    let catalog := Catalog.ofList [post, { name := "Comment", table := "comments" }]
    let query (title : String) (comment : Int64) : Request.Query :=
      ((({} : Request.Query).withFilter "title" (.text title)).withFilter "author" .null
        ).withExistence { relation := "comments", value := some (.int comment) }
    let comments (limit : UInt64) (comment : Int64) : Join :=
      { name := "comments", cardinality := .many, table := "comments", localKey := "id",
        foreignKey := "post_id", softDeletes := false,
        order := { column := "id", order := .ascending }, limit := some limit,
        constraint := .equals "id" (.int comment) }
    let drop := "\"; DROP TABLE posts; --"
    (∃ plan plan', compile catalog "Post" {} (query "first" 7) = .ok plan ∧
      compile catalog "Post" {} (query drop 8) = .ok plan' ∧
      plan.statement.sql = plan'.statement.sql ∧
      plan.statement.parameters = [.text "first", .int 7] ∧
      plan'.statement.parameters = [.text drop, .int 8]) ∧
    ((comments 3 7).statement [.text "a", .int 2]).sql =
      ((comments 3 8).statement [.text drop, .int 9]).sql ∧
    ((comments 3 7).statement [.text "a", .int 2]).parameters =
      [.text "a", .int 2, .int 7, .int 3] ∧
    ((comments 18446744073709551615 7).statement [.text drop]).parameters =
      [.text drop, .int 7, .int 9223372036854775807] ∧
    (post.insert [("title", .string "first")]).sql =
      (post.insert [("title", .string drop)]).sql ∧
    (post.insert [("title", .string drop)]).parameters = [.text drop] ∧
    (post.lookup "id" (.int 1)).sql = (post.lookup "id" (.text drop)).sql ∧
    (post.lookup "id" (.text drop)).parameters = [.text drop] ∧
    (post.update [("title", .string "first")] "id" (.int 1)).sql =
      (post.update [("title", .string drop)] "id" (.text drop)).sql ∧
    (post.update [("title", .string "first")] "id" (.int 1)).parameters = [.text "first", .int 1] ∧
    (post.delete "id" .null).parameters = [] := by
  intro post catalog query comments drop
  have accepted : ∃ plan, compile catalog "Post" {} (query "first" 7) = .ok plan := ⟨_, rfl⟩
  obtain ⟨queries, joins, inserts, addresses⟩ := values_bound catalog post "Post" {}
  have loads := joins (comments 3 7) (comments 3 8) [.text "a", .int 2] [.text drop, .int 9] rfl rfl
  have many := joins (comments 18446744073709551615 7) _ [.text drop] _ rfl rfl
  have insertion := inserts [("title", .string "first")] [("title", .string drop)] rfl
  have attack := inserts [("title", .string drop)] _ rfl
  have first := addresses "id" (.int 1) (.text drop) rfl
  have second := addresses "id" (.text drop) _ rfl
  have nothing := addresses "id" .null _ rfl
  have change := first.2.2.2.2 [("title", .string "first")] [("title", .string drop)] rfl
  refine ⟨?_, loads.1, loads.2, many.2, insertion.1, attack.2, first.1, second.2.1, change.1,
    change.2, nothing.2.2.2.1⟩
  rcases queries (query "first" 7) (query drop 8) rfl with
    ⟨failure, rejected, _⟩ | ⟨plan, plan', first, second, same, bound, also, _⟩
  · obtain ⟨plan, accepted⟩ := accepted
    exact nomatch accepted.symm.trans rejected
  · exact ⟨plan, plan', first, second, same, bound, also⟩

end Plan

end RequestQuery
