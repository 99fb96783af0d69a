/-
# What an accepted query is resolved to

Compiling is a chain of steps each of which can fail.  Read backwards, an accepted query has a root
entity, keeps the limits, and each of its directives is resolved (`compile_eq_ok_iff`,
`joinOf_eq_ok_iff`, `resolveExistence_eq_ok_iff`).

Whatever loads are put or merged, a join still follows the relation whose name it has: it reads the
table of the entity that the relation leads to, and leaves deleted records out exactly when that
entity only marks them (`loads_resolved`).  No name occurs twice among the loads of a plan, nor
among the joins nested in one load.
-/
import Mathlib.Data.List.Nodup
import RequestQuery.Plan.Compile
import RequestQuery.Proofs.Outcome

namespace RequestQuery

set_option autoImplicit false

/-! ## Directions -/

namespace SortOrder

/-- Keywords are written in upper case and looked for in lower case. -/
theorem sameLetters_keyword (s : String) :
    Text.sameLetters s ascending.keyword = Text.sameLetters s "asc" ∧
      Text.sameLetters s descending.keyword = Text.sameLetters s "desc" := by
  have up : ascending.keyword.toList.map Text.lowerAsciiChar =
      "asc".toList.map Text.lowerAsciiChar := by decide
  have down : descending.keyword.toList.map Text.lowerAsciiChar =
      "desc".toList.map Text.lowerAsciiChar := by decide
  simp only [Text.sameLetters, up, down, and_self]

/-- The two keywords differ in more than the case of their letters. -/
theorem not_sameLetters_desc {s : String} (up : Text.sameLetters s "asc" = true) :
    Text.sameLetters s "desc" = false := by
  have apart : ("asc".toList.map Text.lowerAsciiChar ==
      "desc".toList.map Text.lowerAsciiChar) = false := by decide
  rw [Text.sameLetters, eq_of_beq up]
  exact apart

/-- A direction is one of the keywords, in any letter case and with blanks around it. -/
theorem parse?_eq_some_iff {s : String} {order : SortOrder} :
    parse? s = some order ↔ Text.sameLetters (Text.trim s) order.keyword = true := by
  unfold parse?
  obtain ⟨up, down⟩ := sameLetters_keyword (Text.trim s)
  by_cases first : Text.sameLetters (Text.trim s) "asc" = true
  · have second := not_sameLetters_desc first
    cases order <;> simp [up, down, first, second]
  · cases order <;> simp [up, down, first]

end SortOrder

/-! ## Relations -/

namespace Catalog

theorem entity_eq_ok_iff {catalog : Catalog} {name : String} {entity : Entity} :
    catalog.entity name = .ok entity ↔ catalog.entity? name = some entity := by
  unfold Catalog.entity
  cases catalog.entity? name <;> simp [Failure.raise]

theorem related_eq_ok_iff {catalog : Catalog} {parent : Entity} {name : String}
    {relation : Relation} {target : Entity} :
    catalog.related parent name = .ok (relation, target) ↔
      parent.relation? name = some relation ∧
        catalog.entity? relation.target = some target := by
  unfold Catalog.related
  cases parent.relation? name with
  | none => simp [Failure.raise]
  | some found =>
      simp only [Option.some.injEq]
      constructor
      · intro resolved
        cases target? : catalog.entity? found.target with
        | none => simp [target?] at resolved
        | some entity =>
            simp only [target?, Except.ok.injEq, Prod.mk.injEq] at resolved
            obtain ⟨rfl, rfl⟩ := resolved
            exact ⟨rfl, target?⟩
      · rintro ⟨rfl, known⟩
        simp [known]

theorem name_of_related {catalog : Catalog} {parent : Entity} {name : String}
    {relation : Relation} {target : Entity}
    (h : catalog.related parent name = .ok (relation, target)) : relation.name = name :=
  Entity.name_of_relation? (related_eq_ok_iff.1 h).1

end Catalog

namespace Plan

variable {catalog : Catalog}

/-! ## Directives -/

theorem joinOf_eq_ok_iff {parent : Entity} {load : Request.Load} {join : Join} :
    joinOf catalog parent load = .ok join ↔
      ∃ relation target order,
        catalog.related parent load.relation = .ok (relation, target) ∧
          load.sortOrder? = some order ∧
          join =
            { name := relation.name
              cardinality := relation.cardinality
              table := target.table
              localKey := relation.localKey
              foreignKey := relation.foreignKey
              softDeletes := target.softDeletes
              order := { column := load.key, order }
              limit := some load.limit
              constraint := .none } := by
  unfold joinOf
  rw [Outcome.bind_eq_ok_iff]
  constructor
  · rintro ⟨⟨relation, target⟩, related, made⟩
    cases direction : load.sortOrder? with
    | none => simp [direction, Failure.raise] at made
    | some order =>
        simp only [direction, Outcome.pure_eq_ok_iff] at made
        exact ⟨relation, target, order, related, rfl, made.symm⟩
  · rintro ⟨relation, target, order, related, direction, rfl⟩
    exact ⟨(relation, target), related, by simp [direction, Outcome.pure_eq_ok_iff]⟩

/-- What an existence directive compares the key of the related record with. -/
def compared (target : Entity) (directive : Request.Existence) : Predicate :=
  match directive.value with
  | some value => comparison directive.operator target.primaryKey value
  | none => .none

/-- The condition of an existence directive whose relation leads to `target`. -/
def conditionOf (relation : Relation) (target : Entity) (directive : Request.Existence) :
    Existence :=
  { table := target.table
    localKey := relation.localKey
    foreignKey := relation.foreignKey
    softDeletes := target.softDeletes
    comparison := compared target directive
    negated := directive.negated }

/-- The load that an existence directive brings along for the load nested in it. -/
def scopedLoad (relation : Relation) (target : Entity) (directive : Request.Existence)
    (nested : Join) : EagerLoad :=
  { join :=
      { name := relation.name
        cardinality := relation.cardinality
        table := target.table
        localKey := relation.localKey
        foreignKey := relation.foreignKey
        softDeletes := target.softDeletes
        order := { column := target.primaryKey, order := .ascending }
        limit := none
        constraint := compared target directive }
    isEmpty := directive.negated
    nested := [nested] }

theorem resolveExistence_eq_ok_iff {root : Entity} {directive : Request.Existence}
    {resolved : ResolvedExistence} :
    resolveExistence catalog root directive = .ok resolved ↔
      ∃ relation target nested,
        catalog.related root directive.relation = .ok (relation, target) ∧
          directive.load.mapM (joinOf catalog target) = .ok nested ∧
          resolved =
            { condition := conditionOf relation target directive
              load := nested.map (scopedLoad relation target directive) } := by
  unfold resolveExistence
  simp only [Outcome.bind_eq_ok_iff, Outcome.pure_eq_ok_iff, Prod.exists]
  constructor
  · rintro ⟨relation, target, related, nested, joined, rfl⟩
    exact ⟨relation, target, nested, related, joined, rfl⟩
  · rintro ⟨relation, target, nested, related, joined, rfl⟩
    exact ⟨relation, target, related, nested, joined, rfl⟩

/-! ## The plan as a whole -/

/-- The loads of a plan, from the explicit ones and the resolved existence directives. -/
def mergedLoads (explicit : Ordered EagerLoad) (resolved : List ResolvedExistence) :
    Ordered EagerLoad :=
  (resolved.filterMap (·.load)).foldl attach explicit

/-- The plan of a query whose names are resolved. -/
def assembled (root : Entity) (query : Request.Query) (loads : List EagerLoad)
    (existences : List Existence) : Plan :=
  let hidden :=
    match query.select with
    | some selected => hiddenKeys selected (neededKeys loads)
    | none => []
  { entity := root.name
    table := root.table
    projection := query.select.map (· ++ hidden)
    hidden
    filter := rootFilter root query.filters
    existences
    groupBy := query.groupBy.getD []
    orderBy := query.sorting.map fun entry => { column := entry.1, order := entry.2 }
    loads }

/-- **A query is accepted exactly when each step of its compilation is.** -/
theorem compile_eq_ok_iff {entity : String} {limits : Limits} {query : Request.Query}
    {plan : Plan} :
    compile catalog entity limits query = .ok plan ↔
      ∃ root explicit resolved,
        catalog.entity? entity = some root ∧
          checkRelationLimit limits query = .ok () ∧
          checkEagerLoads limits query = .ok () ∧
          explicitLoads catalog root query.loads = .ok explicit ∧
          List.Forall₂ (fun directive item => resolveExistence catalog root directive = .ok item)
            query.existences resolved ∧
          plan =
            assembled root query ((mergedLoads explicit resolved).map (·.2))
              (resolved.map (·.condition)) := by
  unfold compile
  simp only [Outcome.bind_eq_ok_iff, Outcome.pure_eq_ok_iff, Catalog.entity_eq_ok_iff,
    Outcome.mapM_eq_ok_iff]
  constructor
  · rintro ⟨root, found, _, few, _, small, explicit, loaded, resolved, directives, rfl⟩
    exact ⟨root, explicit, resolved, found, few, small, loaded, directives, rfl⟩
  · rintro ⟨root, explicit, resolved, found, few, small, loaded, directives, rfl⟩
    exact ⟨root, found, (), few, (), small, explicit, loaded, resolved, directives, rfl⟩

/-! ## Joins follow relations -/

/-- A join fetches the records that a relation leads to. -/
structure Join.Follows (catalog : Catalog) (parent : Entity) (relation : Relation)
    (target : Entity) (join : Join) : Prop where
  related : catalog.related parent join.name = .ok (relation, target)
  cardinality : join.cardinality = relation.cardinality
  localKey : join.localKey = relation.localKey
  foreignKey : join.foreignKey = relation.foreignKey
  table : join.table = target.table
  softDeletes : join.softDeletes = target.softDeletes

theorem follows_joinOf {parent : Entity} {load : Request.Load} {join : Join}
    (accepted : joinOf catalog parent load = .ok join) :
    ∃ relation target, join.Follows catalog parent relation target := by
  obtain ⟨relation, target, order, related, _, rfl⟩ := joinOf_eq_ok_iff.1 accepted
  rw [← Catalog.name_of_related related] at related
  exact ⟨relation, target, related, rfl, rfl, rfl, rfl, rfl⟩

/-- A load follows a relation of the root, and the joins nested in it follow different relations of
the entity it leads to. -/
structure EagerLoad.Resolved (catalog : Catalog) (root target : Entity) (load : EagerLoad) :
    Prop where
  follows : ∃ relation, load.join.Follows catalog root relation target
  nested : ∀ join ∈ load.nested, ∃ relation inner, join.Follows catalog target relation inner
  distinct : (load.nested.map (·.name)).Nodup

theorem resolved_scopedLoad {root target : Entity} {relation : Relation}
    {directive : Request.Existence} {nested : Join}
    (related : catalog.related root directive.relation = .ok (relation, target))
    (follows : ∃ relation inner, nested.Follows catalog target relation inner) :
    (scopedLoad relation target directive nested).Resolved catalog root target where
  follows := by
    rw [← Catalog.name_of_related related] at related
    exact ⟨relation, related, rfl, rfl, rfl, rfl, rfl⟩
  nested := by
    intro join member
    rwa [List.mem_singleton.1 member]
  distinct := List.nodup_singleton _

/-- Loads under the names of their relations, each name once. -/
structure LoadsResolved (catalog : Catalog) (root : Entity) (loads : Ordered EagerLoad) :
    Prop where
  distinct : loads.Distinct
  named : ∀ entry ∈ loads, entry.2.join.name = entry.1
  resolved : ∀ entry ∈ loads, ∃ target, entry.2.Resolved catalog root target

namespace LoadsResolved

variable {root target : Entity} {loads : Ordered EagerLoad} {load : EagerLoad}

theorem empty : LoadsResolved catalog root [] :=
  ⟨List.nodup_nil, by simp, by simp⟩

theorem put (h : LoadsResolved catalog root loads)
    (resolved : load.Resolved catalog root target) :
    LoadsResolved catalog root (loads.put load.join.name load) where
  distinct := h.distinct.put _ _
  named := by
    intro entry member
    rcases Ordered.mem_put member with rfl | member
    · rfl
    · exact h.named entry member
  resolved := by
    intro entry member
    rcases Ordered.mem_put member with rfl | member
    · exact ⟨target, resolved⟩
    · exact h.resolved entry member

/-- The names of the joins stay different: those that are taken are left out. -/
theorem nodup_addNested {present added : List Join} (first : (present.map (·.name)).Nodup)
    (second : (added.map (·.name)).Nodup) :
    ((addNested present added).map (·.name)).Nodup := by
  rw [addNested, List.map_append]
  refine List.nodup_append.2 ⟨first, second.sublist (List.filter_sublist.map _), ?_⟩
  rintro name inPresent other inAdded rfl
  obtain ⟨join, member, rfl⟩ := List.mem_map.1 inPresent
  obtain ⟨another, kept, same⟩ := List.mem_map.1 inAdded
  simp only [List.mem_filter, Bool.not_eq_true', List.any_eq_false, decide_eq_true_eq] at kept
  exact kept.2 join member same.symm

theorem attach (h : LoadsResolved catalog root loads)
    (resolved : load.Resolved catalog root target) :
    LoadsResolved catalog root (attach loads load) := by
  unfold Plan.attach
  cases found : loads.get? load.join.name with
  | none => exact h.put resolved
  | some present =>
      have member := Ordered.mem_of_get? found
      obtain ⟨other, before⟩ := h.resolved _ member
      have named : present.join.name = load.join.name := h.named _ member
      obtain ⟨relation, follows⟩ := before.follows
      obtain ⟨relation', follows'⟩ := resolved.follows
      -- Both follow the relation of the same name, so they lead to the same entity.
      obtain ⟨rfl, rfl⟩ : relation = relation' ∧ other = target := by
        have same := follows.related
        rw [named, follows'.related] at same
        simpa [eq_comm] using same
      have merged : EagerLoad.Resolved catalog root other
          { present with nested := addNested present.nested load.nested } :=
        { follows := ⟨relation, follows⟩
          nested := by
            intro join joined
            rcases List.mem_append.1 joined with joined | joined
            · exact before.nested join joined
            · exact resolved.nested join (List.mem_filter.1 joined).1
          distinct := nodup_addNested before.distinct resolved.distinct }
      have := h.put merged
      rwa [named] at this

theorem explicitLoads {directives : List Request.Load}
    (accepted : explicitLoads catalog root directives = .ok loads) :
    LoadsResolved catalog root loads := by
  obtain ⟨joins, joined, made⟩ := Outcome.bind_eq_ok_iff.1 accepted
  rw [← Outcome.pure_eq_ok_iff.1 made]
  have each : ∀ join ∈ joins, ∃ relation target, join.Follows catalog root relation target := by
    intro join member
    obtain ⟨directive, _, asked⟩ := Outcome.exists_of_mem_mapM joined member
    exact follows_joinOf asked
  suffices ∀ loads, LoadsResolved catalog root loads →
      LoadsResolved catalog root ((joins.map fun join => (join.name, ({ join } : EagerLoad))).foldl
        (fun acc entry => Ordered.put acc entry.1 entry.2) loads) from this [] empty
  clear joined made
  induction joins with
  | nil => exact fun _ h => h
  | cons join joins ih =>
      intro loads h
      rw [List.forall_mem_cons] at each
      obtain ⟨relation, target, follows⟩ := each.1
      have alone : EagerLoad.Resolved catalog root target { join } :=
        ⟨⟨relation, follows⟩, by simp, List.nodup_nil⟩
      exact ih each.2 _ (h.put alone)

theorem mergedLoads (h : LoadsResolved catalog root loads) {items : List ResolvedExistence}
    {directives : List Request.Existence}
    (resolved : List.Forall₂
      (fun directive item => resolveExistence catalog root directive = .ok item)
      directives items) :
    LoadsResolved catalog root (mergedLoads loads items) := by
  unfold Plan.mergedLoads
  induction resolved generalizing loads with
  | nil => exact h
  | @cons directive item _ _ accepted _ ih =>
      obtain ⟨relation, target, nested, related, joined, rfl⟩ :=
        resolveExistence_eq_ok_iff.1 accepted
      cases nested with
      | none => exact ih h
      | some join =>
          have inner : ∃ relation inner, join.Follows catalog target relation inner := by
            rw [Outcome.optionMapM_eq_ok_iff] at joined
            cases asked : directive.load with
            | none =>
                rw [asked] at joined
                cases joined
            | some nested =>
                rw [asked, Option.rel_some_some] at joined
                exact follows_joinOf joined
          exact ih (h.attach (resolved_scopedLoad related inner))

end LoadsResolved

/-- **The loads of a plan follow the relations they are named after, each of them once.** -/
theorem loads_resolved {entity : String} {limits : Limits} {query : Request.Query} {plan : Plan}
    (accepted : compile catalog entity limits query = .ok plan) :
    ∃ root, catalog.entity? entity = some root ∧ plan.relationNames.Nodup ∧
      ∀ load ∈ plan.loads, ∃ target, load.Resolved catalog root target := by
  obtain ⟨root, explicit, resolved, found, _, _, loaded, directives, rfl⟩ :=
    compile_eq_ok_iff.1 accepted
  have merged := (LoadsResolved.explicitLoads loaded).mergedLoads directives
  refine ⟨root, found, ?_, ?_⟩
  · have names : (assembled root query ((mergedLoads explicit resolved).map (·.2))
        (resolved.map (·.condition))).relationNames = (mergedLoads explicit resolved).names := by
      simp only [relationNames, assembled, List.map_map, Ordered.names]
      exact List.map_congr_left merged.named
    rw [names]
    exact merged.distinct
  · intro load member
    obtain ⟨entry, kept, rfl⟩ := List.mem_map.1 member
    exact merged.resolved entry kept

end Plan

end RequestQuery
