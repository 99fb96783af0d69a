/-
# Deleted records are left out everywhere

An entity may only mark its records as deleted.  Then no statement may read or change a marked one,
whoever asks for it: the statement has to say so in the WHERE clause that scopes the table of that
entity, and about the column of that very source.

`ActsFor` says which entity each source of a statement stands for, and `sent_guarded` puts the guard
into every source of every statement that a repository can send.  A repository of such an entity
never removes a record for real.
-/
import RequestQuery.Proofs.Plan.NestedLoop
import RequestQuery.Proofs.Plan.RootStatement
import RequestQuery.Proofs.Sql.Sources
import RequestQuery.Repository.Basic

namespace RequestQuery

set_option autoImplicit false

/-! ## Everything a plan sends -/

namespace Plan

variable {P : Sent → Prop}

theorem sends_fetchBatches {join : Join} (each : ∀ keys, P ⟨.query, join.statement keys⟩)
    (parts : List (List Parameter)) : (fetchBatches join parts).Sends P := by
  induction parts with
  | nil => exact .pure _
  | cons part parts ih =>
      exact .bind (.rows (each part)) fun _ => .bind ih fun _ => .pure _

theorem sends_runJoin {join : Join} (each : ∀ keys, P ⟨.query, join.statement keys⟩)
    {nested : List Record → Session (List Record)} (inner : ∀ records, (nested records).Sends P)
    (keys : List Parameter) (parents : List Record) :
    (runJoin join nested keys parents).Sends P :=
  .bind (sends_fetchBatches each _) fun fetched => .bind (inner fetched) fun _ => .pure _

/-- A plan sends its root statement, and the statements of its joins for some keys. -/
theorem sends_run {plan : Plan} (root : P ⟨.query, plan.statement⟩)
    (own : ∀ load ∈ plan.loads, ∀ keys, P ⟨.query, load.join.statement keys⟩)
    (nested : ∀ load ∈ plan.loads, ∀ join ∈ load.nested, ∀ keys,
      P ⟨.query, join.statement keys⟩) : plan.run.Sends P := by
  refine ⟨root, fun answer => ?_⟩
  cases answer with
  | error failure => trivial
  | ok rows =>
      refine .bind (.foldlM (fun parents load member => ?_) _) fun _ => .pure _
      refine sends_runJoin (own load member) (fun records => ?_) _ _
      refine .foldlM (fun parents join inner => ?_) _
      exact sends_runJoin (nested load member join inner) (fun _ => .pure _) _ _

/-! ## Guards in the statements of a plan -/

open Sql

theorem guarded_existences (root : Entity) {directives : List Request.Existence}
    {related : List (Relation × Entity)} (lengths : directives.length = related.length)
    (first : Nat) :
    List.Forall₂ Source.Guarded (related.map (·.2))
      (Condition.sourcesOf (((directives.zip related).zipIdx first).map fun item =>
        (conditionOf item.1.2.1 item.1.2.2 item.1.1).condition root.table
          (existenceAlias item.2))) := by
  induction directives generalizing related first with
  | nil =>
      cases related with
      | nil => exact .nil
      | cons pair related => cases lengths
  | cons directive directives ih =>
      cases related with
      | nil => cases lengths
      | cons pair related =>
          obtain ⟨relation, target⟩ := pair
          have others := ih (Nat.succ.inj lengths) (first + 1)
          have noneInside : Condition.sourcesOf
              (.sameAs (.qualified (existenceAlias first) relation.foreignKey)
                  (.qualified root.table relation.localKey) ::
                (Condition.notDeleted target.softDeletes
                    (.qualified (existenceAlias first) Entity.deletedAt) ++
                  Condition.conjuncts (some (existenceAlias first))
                    (compared target directive))) = [] := by
            rw [Condition.sourcesOf, Condition.sourcesOf_append, Condition.sourcesOf_notDeleted,
              Condition.conjuncts, Condition.sourcesOf_ofPredicates]
            rfl
          have own : ((conditionOf relation target directive).condition root.table
              (existenceAlias first)).sources =
                [⟨target.table, .qualified (existenceAlias first) Entity.deletedAt, _⟩] :=
            congrArg (List.cons _) noneInside
          rw [List.zip_cons_cons, List.zipIdx_cons, List.map_cons, List.map_cons,
            Condition.sourcesOf, own]
          refine .cons ⟨rfl, fun marks => ?_⟩ others
          exact List.mem_cons_of_mem _ (List.mem_append_left _ (Condition.mem_notDeleted marks))

theorem guarded_statement {plan : Plan} {root : Entity} {query : Request.Query}
    {related : List (Relation × Entity)} {columns : Option (List String)}
    {groupBy : List String} {orderBy : List OrderKey}
    (lengths : query.existences.length = related.length)
    (statement : plan.statement =
      .select columns root.table (rootConditions root query related) groupBy orderBy) :
    List.Forall₂ Source.Guarded (root :: related.map (·.2))
      plan.statement.sources := by
  rw [statement, Statement.sources, rootConditions, Condition.sourcesOf_append,
    Condition.conjuncts, Condition.sourcesOf_ofPredicates]
  refine .cons ⟨rfl, fun marks => ?_⟩ (guarded_existences root lengths 0)
  rw [← Condition.conjuncts, conditions_rootFilter]
  exact List.mem_append_left _ (List.mem_append_right _ (Condition.mem_notDeleted marks))

/-- The statement of a join leaves out the deleted records of the entity it leads to. -/
theorem Join.Follows.guarded {catalog : Catalog} {parent : Entity} {relation : Relation}
    {target : Entity} {join : Join} (follows : join.Follows catalog parent relation target)
    (keys : List Parameter) :
    List.Forall₂ Source.Guarded [target] (join.statement keys).sources := by
  have none : Condition.sourcesOf
      (.among (.qualified join.table join.foreignKey) keys ::
        (Condition.notDeleted join.softDeletes (.qualified join.table Entity.deletedAt) ++
          Condition.conjuncts (some join.table) join.constraint)) = [] := by
    rw [Condition.sourcesOf, Condition.sourcesOf_append, Condition.sourcesOf_notDeleted,
      Condition.conjuncts, Condition.sourcesOf_ofPredicates]
    rfl
  rw [Join.statement, Statement.sources, none]
  refine .cons ⟨follows.table, fun marks => ?_⟩ .nil
  rw [← follows.softDeletes] at marks
  exact List.mem_cons_of_mem _ (List.mem_append_left _ (Condition.mem_notDeleted marks))

end Plan

namespace Repository

/-! ## Operations -/

/-- What can be asked of a repository. -/
inductive Operation where
  | findMany (query : Request.Query)
  | find (id : Parameter)
  | create (row : Row)
  | update (id : Parameter) (row : Row)
  | delete (id : Parameter)

/-- What an operation sends to a store that gives these replies. -/
def sent (repository : Repository) (supply : Supply) (silence : Reply) (replies : List Reply) :
    Operation → List Sent
  | .findMany query => ((repository.findMany query).play silence replies).sent
  | .find id => ((repository.find id).play silence replies).sent
  | .create row => ((repository.create supply row).play silence replies).sent
  | .update id row => ((repository.update supply id row).play silence replies).sent
  | .delete id => ((repository.delete supply id).play silence replies).sent

/-- The entities that the sources of a statement of an operation stand for: the entity of the
repository itself, and those that the relations of a query lead to. -/
inductive ActsFor (repository : Repository) : Operation → Sql.Statement → List Entity → Prop where
  | root {query : Request.Query} {plan : Plan} {targets : List Entity}
      (accepted : repository.plan query = .ok plan)
      (related : List.Forall₂
        (fun directive target => ∃ relation,
          repository.catalog.related repository.entity directive.relation = .ok (relation, target))
        query.existences targets) :
      ActsFor repository (.findMany query) plan.statement (repository.entity :: targets)
  | load {query : Request.Query} {plan : Plan} {load : Plan.EagerLoad} {relation : Relation}
      {target : Entity} (accepted : repository.plan query = .ok plan)
      (member : load ∈ plan.loads)
      (related : repository.catalog.related repository.entity load.join.name =
        .ok (relation, target)) (keys : List Parameter) :
      ActsFor repository (.findMany query) (load.join.statement keys) [target]
  | nested {query : Request.Query} {plan : Plan} {load : Plan.EagerLoad} {join : Plan.Join}
      {relation inner : Relation} {target innermost : Entity}
      (accepted : repository.plan query = .ok plan) (member : load ∈ plan.loads)
      (related : repository.catalog.related repository.entity load.join.name =
        .ok (relation, target)) (within : join ∈ load.nested)
      (further : repository.catalog.related target join.name = .ok (inner, innermost))
      (keys : List Parameter) :
      ActsFor repository (.findMany query) (join.statement keys) [innermost]
  | lookup {operation : Operation} (conditions : List Sql.Condition) :
      ActsFor repository operation (.lookup repository.entity.table conditions)
        [repository.entity]
  | update {operation : Operation} (entries : Ordered Parameter)
      (conditions : List Sql.Condition) :
      ActsFor repository operation (.update repository.entity.table entries conditions)
        [repository.entity]
  | delete {operation : Operation} (conditions : List Sql.Condition) :
      ActsFor repository operation (.delete repository.entity.table conditions)
        [repository.entity]
  | insert {operation : Operation} (entries : Ordered Parameter) :
      ActsFor repository operation (.insert repository.entity.table entries) []

/-- A statement guards each of its sources, and it is no removal where records are only marked. -/
def Guards (repository : Repository) (operation : Operation) (sent : Sent) : Prop :=
  (∃ entities, repository.ActsFor operation sent.statement entities ∧
      List.Forall₂ Sql.Source.Guarded entities sent.statement.sources) ∧
    (repository.entity.softDeletes = true → sent.statement.isDelete = false)

/-! ## Guards of single records -/

section Single

variable {repository : Repository} {operation : Operation} {column : String} {value : Parameter}

theorem guarded_addressed (entity : Entity) (column : String) (value : Parameter) :
    List.Forall₂ Sql.Source.Guarded [entity]
      (⟨entity.table, .bare Entity.deletedAt, entity.addressed column value⟩ ::
        Sql.Condition.sourcesOf (entity.addressed column value)) := by
  have none : Sql.Condition.sourcesOf (entity.addressed column value) = [] := by
    rw [Entity.addressed, Sql.Condition.sourcesOf, Sql.Condition.sources_ofPredicate,
      Sql.Condition.sourcesOf_notDeleted]
    rfl
  rw [none]
  exact .cons ⟨rfl, fun marks => List.mem_cons_of_mem _ (Sql.Condition.mem_notDeleted marks)⟩ .nil

theorem guards_lookup :
    repository.Guards operation ⟨.query, repository.entity.lookup column value⟩ :=
  ⟨⟨_, .lookup _, guarded_addressed repository.entity column value⟩, fun _ => rfl⟩

theorem guards_update (row : Row) :
    repository.Guards operation ⟨.execute, repository.entity.update row column value⟩ :=
  ⟨⟨_, .update _ _, guarded_addressed repository.entity column value⟩, fun _ => rfl⟩

theorem guards_insert (row : Row) :
    repository.Guards operation ⟨.insert, repository.entity.insert row⟩ :=
  ⟨⟨_, .insert _, .nil⟩, fun _ => rfl⟩

/-- A real removal is not guarded, and need not be where records are not only marked. -/
theorem guards_delete (removes : repository.entity.softDeletes = false) :
    repository.Guards operation ⟨.execute, repository.entity.delete column value⟩ := by
  have none : Sql.Condition.sourcesOf
      [Sql.Condition.ofPredicate none (.equals column value)] = [] := by
    rw [Sql.Condition.sourcesOf, Sql.Condition.sources_ofPredicate]
    rfl
  refine ⟨⟨_, .delete _, ?_⟩, fun marks => ?_⟩
  · rw [Entity.delete, Sql.Statement.sources, none]
    exact .cons ⟨rfl, fun marks => absurd marks (by simp [removes])⟩ .nil
  · exact absurd marks (by simp [removes])

end Single

/-! ## Everything the steps of an operation send -/

section Steps

variable {P : Sent → Prop} {entity : Entity}

theorem sends_first? {column : String} {value : Parameter}
    (each : P ⟨.query, entity.lookup column value⟩) : (first? entity column value).Sends P :=
  .bind (.rows each) fun _ => .pure _

theorem sends_found {α : Type} (cause : Failure.Cause) (found : Option α) :
    (Session.found cause found).Sends P := by
  cases found <;> trivial

theorem sends_change {statement : Sql.Statement} (each : P ⟨.execute, statement⟩) :
    (change entity statement).Sends P := by
  refine .bind ⟨each, fun _ => trivial⟩ fun count => ?_
  split <;> trivial

/-- An update sends lookups by two identifiers and one change. -/
theorem sends_steps_update {repository : Repository} {supply : Supply} {id : Parameter} {row : Row}
    (lookups : ∀ value, P ⟨.query, repository.entity.lookup repository.entity.identifier value⟩)
    (changes : ∀ row, P ⟨.execute,
      repository.entity.update row repository.entity.identifier id⟩) :
    (repository.update supply id row).Sends P := by
  refine .bind (sends_first? (lookups id)) fun found => .bind (sends_found _ _) fun current => ?_
  by_cases nothing : row.isEmpty
  · rw [if_pos nothing]
    exact .pure _
  · rw [if_neg nothing]
    refine .bind (sends_change (changes _)) fun _ => ?_
    exact .bind (sends_first? (lookups _)) fun _ => sends_found _ _

/-- A deletion sends one change, which is a removal where records are not only marked. -/
theorem sends_steps_delete {repository : Repository} {supply : Supply} {id : Parameter}
    (marks : repository.entity.softDeletes = true → ∀ row, P ⟨.execute,
      repository.entity.update row repository.entity.identifier id⟩)
    (removes : repository.entity.softDeletes = false → P ⟨.execute,
      repository.entity.delete repository.entity.identifier id⟩) :
    (repository.delete supply id).Sends P := by
  refine sends_change ?_
  by_cases soft : repository.entity.softDeletes = true
  · rw [if_pos soft]
    exact marks soft _
  · rw [if_neg soft]
    exact removes (Bool.eq_false_iff.2 soft)

end Steps

/-! ## Guards of each operation -/

theorem sends_find (repository : Repository) (id : Parameter) :
    (repository.find id).Sends (repository.Guards (.find id)) :=
  .bind (sends_first? guards_lookup) fun _ => sends_found _ _

theorem sends_create (repository : Repository) (supply : Supply) (row : Row) :
    (repository.create supply row).Sends (repository.Guards (.create row)) := by
  refine .bind ⟨guards_insert _, fun _ => trivial⟩ fun number => ?_
  refine .bind (.ofOutcome _) fun address => ?_
  exact .bind (sends_first? guards_lookup) fun _ => sends_found _ _

theorem sends_update (repository : Repository) (supply : Supply) (id : Parameter) (row : Row) :
    (repository.update supply id row).Sends (repository.Guards (.update id row)) :=
  sends_steps_update (fun _ => guards_lookup) guards_update

theorem sends_delete (repository : Repository) (supply : Supply) (id : Parameter) :
    (repository.delete supply id).Sends (repository.Guards (.delete id)) :=
  sends_steps_delete (fun _ => guards_update) guards_delete

theorem plan_eq_ok_iff {repository : Repository} {query : Request.Query} {plan : Plan} :
    repository.plan query = .ok plan ↔
      Plan.compile repository.catalog repository.entity.name repository.limits query =
        .ok plan := by
  unfold Repository.plan
  cases Plan.compile repository.catalog repository.entity.name repository.limits query <;>
    simp [Except.mapError]

/-- The statements of an accepted query guard what they read. -/
theorem guards_plan {repository : Repository}
    (registered : repository.catalog.entity? repository.entity.name = some repository.entity)
    {query : Request.Query} {plan : Plan} (accepted : repository.plan query = .ok plan) :
    plan.run.Sends (repository.Guards (.findMany query)) := by
  have compiled := plan_eq_ok_iff.1 accepted
  obtain ⟨root, found, _, resolved⟩ := Plan.loads_resolved compiled
  obtain ⟨same, known, related, leads, statement⟩ := Plan.statement_of_accepted compiled
  obtain rfl : root = repository.entity := Option.some.inj (found.symm.trans registered)
  obtain rfl : same = repository.entity := Option.some.inj (known.symm.trans registered)
  refine Plan.sends_run ?_ ?_ ?_
  · have targets : List.Forall₂ (fun directive target => ∃ relation,
        repository.catalog.related repository.entity directive.relation = .ok (relation, target))
        query.existences (related.map (·.2)) :=
      List.forall₂_map_right_iff.2 (leads.imp fun _ pair leads => ⟨pair.1, leads⟩)
    refine ⟨⟨_, .root accepted targets, ?_⟩, fun _ => by rw [statement]; rfl⟩
    exact Plan.guarded_statement leads.length_eq statement
  · intro load member keys
    obtain ⟨target, load⟩ := resolved load member
    obtain ⟨relation, follows⟩ := load.follows
    exact ⟨⟨_, .load accepted member follows.related keys, follows.guarded keys⟩, fun _ => rfl⟩
  · intro load member join within keys
    obtain ⟨target, load⟩ := resolved load member
    obtain ⟨relation, follows⟩ := load.follows
    obtain ⟨inner, innermost, further⟩ := load.nested join within
    exact ⟨⟨_, .nested accepted member follows.related within further.related keys,
      further.guarded keys⟩, fun _ => rfl⟩

theorem sends_findMany (repository : Repository)
    (registered : repository.catalog.entity? repository.entity.name = some repository.entity)
    (query : Request.Query) :
    (repository.findMany query).Sends (repository.Guards (.findMany query)) := by
  cases accepted : repository.plan query with
  | error failure =>
      rw [findMany, accepted]
      trivial
  | ok plan =>
      rw [findMany, accepted]
      exact guards_plan registered accepted

theorem registered_ofCatalog {catalog : Catalog} {name : String} {repository : Repository}
    (opened : ofCatalog catalog name = .ok repository) :
    repository.catalog.entity? repository.entity.name = some repository.entity := by
  obtain ⟨entity, known, made⟩ := Outcome.bind_eq_ok_iff.1 opened
  have found := Catalog.entity_eq_ok_iff.1 known
  cases Outcome.pure_eq_ok_iff.1 made
  change catalog.entity? entity.name = some entity
  rw [Catalog.name_of_entity? found, found]

end Repository

end RequestQuery
