/-
# Which queries are accepted

A query has to meet requirements: its entity is known, its load directives keep the limits, and each
relation and direction in it can be resolved.  Written down in the order in which they are looked at
(`requirements`), they decide what compiling does: where all of them are met there is a plan, and
otherwise the failure is that of the first one that is not (`depends_compile`).

So acceptance does not depend on the order (`WellFormed`), the limits can only take plans away, and
a rejected query has told the store nothing.
-/
import RequestQuery.Proofs.Plan.Resolution
import RequestQuery.Proofs.Requirement
import RequestQuery.Repository.Basic

namespace RequestQuery

set_option autoImplicit false

namespace Plan

variable {catalog : Catalog}

/-! ## What a query has to meet -/

section Requirements

open Requirement

def knownEntity (catalog : Catalog) (name : String) : Requirement where
  holds := ∃ entity, catalog.entity? name = some entity
  failure := .of (.unknownEntity name)

def withinLimit (maximum : UInt64) (load : Request.Load) : Requirement where
  holds := load.limit ≤ maximum
  failure :=
    .of (.limitExceeded ("Limit for relation '" ++ load.relation ++ "'") load.limit.toNat
      maximum.toNat)

def fewLoads (maximum : UInt64) (count : Nat) : Requirement where
  holds := count ≤ maximum.toNat
  failure := .of (.limitExceeded "Eager load count" count maximum.toNat)

def knownRelation (parent : Entity) (name : String) : Requirement where
  holds := ∃ relation, parent.relation? name = some relation
  failure := .of (.unknownRelation parent.name name)

def knownTarget (catalog : Catalog) (parent : Entity) (name : String) (relation : Relation) :
    Requirement where
  holds := ∃ target, catalog.entity? relation.target = some target
  failure :=
    (Failure.of (.unknownEntity relation.target)).withOperation
      ("resolving relation " ++ parent.name ++ "." ++ name)

/-- A direction is one of the two keywords, in any letter case and with blanks around it. -/
def knownDirection (load : Request.Load) : Requirement where
  holds := ∃ order : SortOrder, Text.sameLetters (Text.trim load.direction) order.keyword = true
  failure :=
    .of (.invalidInput ("load." ++ load.relation ++ ".direction")
      ("expected ASC or DESC, got '" ++ load.direction ++ "'"))

/-- The entity that a relation of another one leads to. -/
def target? (catalog : Catalog) (parent : Entity) (name : String) : Option Entity :=
  (parent.relation? name).bind fun relation => catalog.entity? relation.target

def relationRequirements (catalog : Catalog) (parent : Entity) (name : String) :
    List Requirement :=
  knownRelation parent name ::
    (parent.relation? name).toList.map (knownTarget catalog parent name)

def loadRequirements (catalog : Catalog) (parent : Entity) (load : Request.Load) :
    List Requirement :=
  relationRequirements catalog parent load.relation ++ [knownDirection load]

def existenceRequirements (catalog : Catalog) (root : Entity) (existence : Request.Existence) :
    List Requirement :=
  relationRequirements catalog root existence.relation ++
    (target? catalog root existence.relation).toList.flatMap fun target =>
      existence.load.toList.flatMap (loadRequirements catalog target)

/-- The limits are about the explicit loads and, after them, those nested in existence
directives. -/
def limitRequirements (limits : Limits) (query : Request.Query) : List Requirement :=
  (limits.relationLimit.toList.flatMap fun maximum =>
      (query.loads ++ query.existences.filterMap (·.load)).map (withinLimit maximum)) ++
    limits.eagerLoads.toList.map fun maximum =>
      fewLoads maximum (query.loads ++ query.existences.filterMap (·.load)).length

def directiveRequirements (catalog : Catalog) (root : Entity) (query : Request.Query) :
    List Requirement :=
  query.loads.flatMap (loadRequirements catalog root) ++
    query.existences.flatMap (existenceRequirements catalog root)

/-- All that a query has to meet, in the order in which it is looked at. -/
def requirements (catalog : Catalog) (entity : String) (limits : Limits)
    (query : Request.Query) : List Requirement :=
  knownEntity catalog entity :: (limitRequirements limits query ++
    (catalog.entity? entity).toList.flatMap fun root => directiveRequirements catalog root query)

/-! ## Compiling depends on them -/

theorem depends_entity (catalog : Catalog) (name : String) :
    Depends (catalog.entity name) [knownEntity catalog name] := by
  unfold Catalog.entity
  cases found : catalog.entity? name with
  | none =>
      refine .error (.here ?_)
      rintro ⟨entity, known⟩
      exact nomatch found.symm.trans known
  | some entity =>
      refine .ok fun requirement member => ?_
      rw [List.mem_singleton.1 member]
      exact ⟨entity, found⟩

theorem depends_related (catalog : Catalog) (parent : Entity) (name : String) :
    Depends (catalog.related parent name) (relationRequirements catalog parent name) := by
  unfold Catalog.related relationRequirements
  cases found : parent.relation? name with
  | none =>
      refine .error (.here ?_)
      rintro ⟨relation, known⟩
      exact nomatch found.symm.trans known
  | some relation =>
      have known : (knownRelation parent name).holds := ⟨relation, found⟩
      simp only [Option.toList_some, List.map_singleton]
      cases target : catalog.entity? relation.target with
      | none =>
          refine .error (.later known (.here ?_))
          rintro ⟨entity, leads⟩
          exact nomatch target.symm.trans leads
      | some entity =>
          refine .ok fun requirement member => ?_
          simp only [List.mem_cons, List.not_mem_nil, or_false] at member
          rcases member with rfl | rfl
          · exact known
          · exact ⟨entity, target⟩

theorem target?_of_related {parent target : Entity} {name : String} {relation : Relation}
    (related : catalog.related parent name = .ok (relation, target)) :
    target? catalog parent name = some target := by
  obtain ⟨found, leads⟩ := Catalog.related_eq_ok_iff.1 related
  rw [target?, found]
  exact leads

theorem knownDirection_iff {load : Request.Load} :
    (knownDirection load).holds ↔ ∃ order, load.sortOrder? = some order :=
  exists_congr fun _ => SortOrder.parse?_eq_some_iff.symm

theorem depends_joinOf (catalog : Catalog) (parent : Entity) (load : Request.Load) :
    Depends (joinOf catalog parent load) (loadRequirements catalog parent load) := by
  unfold joinOf
  refine (depends_related catalog parent load.relation).bind fun ⟨relation, target⟩ _ => ?_
  cases direction : load.sortOrder? with
  | none =>
      refine .error (.here fun known => ?_)
      obtain ⟨order, parsed⟩ := knownDirection_iff.1 known
      exact nomatch direction.symm.trans parsed
  | some order =>
      refine .ok fun requirement member => ?_
      rw [List.mem_singleton.1 member]
      exact knownDirection_iff.2 ⟨order, direction⟩

theorem depends_resolveExistence (catalog : Catalog) (root : Entity)
    (existence : Request.Existence) :
    Depends (resolveExistence catalog root existence)
      (existenceRequirements catalog root existence) := by
  unfold resolveExistence
  refine (depends_related catalog root existence.relation).bind fun ⟨relation, target⟩ related => ?_
  rw [target?_of_related related, Option.toList_some, List.flatMap_singleton]
  exact (Depends.optionMapM fun load _ => depends_joinOf catalog target load).map

theorem depends_checkRelationLimit (limits : Limits) (query : Request.Query) :
    Depends (checkRelationLimit limits query)
      (limits.relationLimit.toList.flatMap fun maximum =>
        (query.loads ++ query.existences.filterMap (·.load)).map (withinLimit maximum)) := by
  unfold checkRelationLimit directives
  cases limits.relationLimit with
  | none => exact .nothing ()
  | some maximum =>
      simp only [Option.toList_some, List.flatMap_singleton]
      induction query.loads ++ query.existences.filterMap (·.load) with
      | nil => exact .nothing ()
      | cons load loads ih =>
          rw [List.find?_cons, List.map_cons]
          by_cases exceeds : maximum < load.limit
          · simp only [decide_eq_true exceeds]
            exact .error (.here (UInt64.not_le.2 exceeds))
          · simp only [decide_eq_false exceeds]
            have met : (withinLimit maximum load).holds := UInt64.not_lt.1 exceeds
            constructor
            · intro _ ok
              exact List.forall_mem_cons.2 ⟨met, ih.met _ ok⟩
            · intro failure failed
              exact .later met (ih.violated failure failed)

theorem depends_checkEagerLoads (limits : Limits) (query : Request.Query) :
    Depends (checkEagerLoads limits query)
      (limits.eagerLoads.toList.map fun maximum =>
        fewLoads maximum (query.loads ++ query.existences.filterMap (·.load)).length) := by
  unfold checkEagerLoads directives
  cases limits.eagerLoads with
  | none => exact .nothing ()
  | some maximum =>
      simp only [Option.toList_some, List.map_singleton]
      by_cases exceeds :
          maximum.toNat < (query.loads ++ query.existences.filterMap (·.load)).length
      · rw [if_pos exceeds]
        exact .error (.here (Nat.not_le.2 exceeds))
      · rw [if_neg exceeds]
        refine .ok fun requirement member => ?_
        rw [List.mem_singleton.1 member]
        exact Nat.not_lt.1 exceeds

/-- **Compiling succeeds where all requirements are met** and fails as the first one says that is
not. -/
theorem depends_compile (catalog : Catalog) (entity : String) (limits : Limits)
    (query : Request.Query) :
    Depends (compile catalog entity limits query) (requirements catalog entity limits query) := by
  unfold compile requirements limitRequirements
  rw [← List.singleton_append, List.append_assoc]
  refine (depends_entity catalog entity).bind fun root found => ?_
  rw [Catalog.entity_eq_ok_iff.1 found, Option.toList_some, List.flatMap_singleton]
  refine (depends_checkRelationLimit limits query).bind fun _ _ => ?_
  refine (depends_checkEagerLoads limits query).bind fun _ _ => ?_
  refine Depends.bind (Depends.map (Depends.mapM fun load _ => depends_joinOf catalog root load))
    fun explicit _ => ?_
  exact (Depends.mapM fun existence _ => depends_resolveExistence catalog root existence).map

end Requirements

/-! ## Well-formed queries -/

/-- A relation of an entity, by its name, leads to a registered one. -/
def Leads (catalog : Catalog) (parent : Entity) (name : String) (target : Entity) : Prop :=
  ∃ relation, parent.relation? name = some relation ∧
    catalog.entity? relation.target = some target

/-- A load directive names a relation that leads somewhere, and a direction. -/
structure Loadable (catalog : Catalog) (parent : Entity) (load : Request.Load) : Prop where
  relation : ∃ target, Leads catalog parent load.relation target
  direction :
    ∃ order : SortOrder, Text.sameLetters (Text.trim load.direction) order.keyword = true

/-- No load directive, explicit or nested, has too great a limit, and there are not too many of
them. -/
structure Allowed (limits : Limits) (query : Request.Query) : Prop where
  relationLimit : ∀ maximum ∈ limits.relationLimit,
    ∀ load ∈ query.loads ++ query.existences.filterMap (·.load), load.limit ≤ maximum
  eagerLoads : ∀ maximum ∈ limits.eagerLoads,
    (query.loads ++ query.existences.filterMap (·.load)).length ≤ maximum.toNat

/-- Each directive of a query on an entity can be resolved. -/
structure Resolvable (catalog : Catalog) (root : Entity) (query : Request.Query) : Prop where
  loads : ∀ load ∈ query.loads, Loadable catalog root load
  existences : ∀ existence ∈ query.existences,
    ∃ target, Leads catalog root existence.relation target ∧
      ∀ load ∈ existence.load, Loadable catalog target load

def WellFormed (catalog : Catalog) (entity : String) (limits : Limits) (query : Request.Query) :
    Prop :=
  Allowed limits query ∧
    ∃ root, catalog.entity? entity = some root ∧ Resolvable catalog root query

theorem relationRequirements_iff {parent : Entity} {name : String} :
    (∀ requirement ∈ relationRequirements catalog parent name, requirement.holds) ↔
      ∃ target, Leads catalog parent name target := by
  unfold relationRequirements
  rw [List.forall_mem_cons]
  constructor
  · rintro ⟨⟨relation, found⟩, others⟩
    rw [found, Option.toList_some, List.map_singleton, List.forall_mem_singleton] at others
    obtain ⟨target, leads⟩ := others
    exact ⟨target, relation, found, leads⟩
  · rintro ⟨target, relation, found, leads⟩
    rw [found, Option.toList_some, List.map_singleton, List.forall_mem_singleton]
    exact ⟨⟨relation, found⟩, target, leads⟩

theorem leads_iff_target? {parent target : Entity} {name : String} :
    Leads catalog parent name target ↔ target? catalog parent name = some target :=
  Option.bind_eq_some_iff.symm

theorem loadRequirements_iff {parent : Entity} {load : Request.Load} :
    (∀ requirement ∈ loadRequirements catalog parent load, requirement.holds) ↔
      Loadable catalog parent load := by
  unfold loadRequirements
  rw [List.forall_mem_append, relationRequirements_iff, List.forall_mem_singleton]
  exact ⟨fun ⟨relation, direction⟩ => ⟨relation, direction⟩,
    fun ⟨relation, direction⟩ => ⟨relation, direction⟩⟩

theorem existenceRequirements_iff {root : Entity} {existence : Request.Existence} :
    (∀ requirement ∈ existenceRequirements catalog root existence, requirement.holds) ↔
      ∃ target, Leads catalog root existence.relation target ∧
        ∀ load ∈ existence.load, Loadable catalog target load := by
  unfold existenceRequirements
  rw [List.forall_mem_append, relationRequirements_iff]
  have nested : ∀ target, (∀ requirement ∈
      existence.load.toList.flatMap (loadRequirements catalog target), requirement.holds) ↔
        ∀ load ∈ existence.load, Loadable catalog target load := by
    intro target
    simp only [List.forall_mem_flatMap, Option.mem_toList, Option.mem_def, loadRequirements_iff]
  constructor
  · rintro ⟨⟨target, leads⟩, others⟩
    rw [leads_iff_target?.1 leads, Option.toList_some, List.flatMap_singleton] at others
    exact ⟨target, leads, (nested target).1 others⟩
  · rintro ⟨target, leads, loadable⟩
    rw [leads_iff_target?.1 leads, Option.toList_some, List.flatMap_singleton]
    exact ⟨⟨target, leads⟩, (nested target).2 loadable⟩

theorem limitRequirements_iff {limits : Limits} {query : Request.Query} :
    (∀ requirement ∈ limitRequirements limits query, requirement.holds) ↔ Allowed limits query := by
  rw [limitRequirements, List.forall_mem_append]
  simp only [List.forall_mem_flatMap, List.forall_mem_map, Option.mem_toList]
  exact ⟨fun ⟨within, few⟩ => ⟨within, few⟩, fun ⟨within, few⟩ => ⟨within, few⟩⟩

theorem directiveRequirements_iff {root : Entity} {query : Request.Query} :
    (∀ requirement ∈ directiveRequirements catalog root query, requirement.holds) ↔
      Resolvable catalog root query := by
  unfold directiveRequirements
  simp only [List.forall_mem_append, List.forall_mem_flatMap, loadRequirements_iff,
    existenceRequirements_iff]
  exact ⟨fun ⟨loads, existences⟩ => ⟨loads, existences⟩,
    fun ⟨loads, existences⟩ => ⟨loads, existences⟩⟩

/-- To be well-formed is to meet all requirements. -/
theorem requirements_iff {entity : String} {limits : Limits} {query : Request.Query} :
    (∀ requirement ∈ requirements catalog entity limits query, requirement.holds) ↔
      WellFormed catalog entity limits query := by
  unfold requirements
  rw [List.forall_mem_cons, List.forall_mem_append, limitRequirements_iff]
  constructor
  · rintro ⟨⟨root, found⟩, allowed, others⟩
    rw [found, Option.toList_some, List.flatMap_singleton, directiveRequirements_iff] at others
    exact ⟨allowed, root, found, others⟩
  · rintro ⟨allowed, root, found, resolvable⟩
    rw [found, Option.toList_some, List.flatMap_singleton, directiveRequirements_iff]
    exact ⟨⟨root, found⟩, allowed, resolvable⟩

/-! ## Rejections -/

theorem isValidation_of_relation {parent : Entity} {name : String} :
    ∀ requirement ∈ relationRequirements catalog parent name,
      requirement.failure.code.isValidation = true := by
  intro requirement member
  rcases List.mem_cons.1 member with rfl | member
  · rfl
  · obtain ⟨relation, _, rfl⟩ := List.mem_map.1 member
    rfl

theorem isValidation_of_load {parent : Entity} {load : Request.Load} :
    ∀ requirement ∈ loadRequirements catalog parent load,
      requirement.failure.code.isValidation = true := by
  refine List.forall_mem_append.2 ⟨isValidation_of_relation, ?_⟩
  intro requirement member
  rw [List.mem_singleton.1 member]
  rfl

/-- Whatever a query does not meet is a fault of the request. -/
theorem isValidation_of_mem {entity : String} {limits : Limits} {query : Request.Query} :
    ∀ requirement ∈ requirements catalog entity limits query,
      requirement.failure.code.isValidation = true := by
  refine List.forall_mem_cons.2 ⟨rfl, List.forall_mem_append.2 ⟨?_, ?_⟩⟩
  · rw [limitRequirements, List.forall_mem_append]
    simp only [List.forall_mem_flatMap, List.forall_mem_map]
    exact ⟨fun _ _ _ _ => rfl, fun _ _ => rfl⟩
  · unfold directiveRequirements existenceRequirements
    simp only [List.forall_mem_append, List.forall_mem_flatMap]
    exact fun root _ => ⟨fun load _ => isValidation_of_load,
      fun existence _ => ⟨isValidation_of_relation,
        fun target _ nested _ => isValidation_of_load⟩⟩

/-- The limits are looked at and then forgotten. -/
theorem compile_of_limits {entity : String} {limits : Limits} {query : Request.Query}
    {plan : Plan} :
    compile catalog entity limits query = .ok plan ↔
      Allowed limits query ∧ compile catalog entity {} query = .ok plan := by
  have checked : Allowed limits query ↔
      checkRelationLimit limits query = .ok () ∧ checkEagerLoads limits query = .ok () := by
    rw [← limitRequirements_iff, limitRequirements, List.forall_mem_append,
      ← (depends_checkRelationLimit limits query).exists_ok_iff,
      ← (depends_checkEagerLoads limits query).exists_ok_iff]
    exact ⟨fun ⟨⟨_, first⟩, ⟨_, second⟩⟩ => ⟨first, second⟩,
      fun ⟨first, second⟩ => ⟨⟨_, first⟩, ⟨_, second⟩⟩⟩
  rw [checked, compile_eq_ok_iff, compile_eq_ok_iff]
  constructor
  · rintro ⟨root, explicit, resolved, found, few, small, rest⟩
    exact ⟨⟨few, small⟩, root, explicit, resolved, found, rfl, rfl, rest⟩
  · rintro ⟨⟨few, small⟩, root, explicit, resolved, found, _, _, rest⟩
    exact ⟨root, explicit, resolved, found, few, small, rest⟩

/-- A query that is rejected sends nothing. -/
theorem play_findMany_of_rejected {repository : Repository} {query : Request.Query}
    {failure : Failure}
    (rejected : compile repository.catalog repository.entity.name repository.limits query =
      .error failure) (silence : Reply) (replies : List Reply) :
    (repository.findMany query).play silence replies =
      { result := .error
          (failure.withOperation ("compiling query for " ++ repository.entity.name))
        sent := []
        unused := replies } := by
  have planned : repository.plan query = .error
      (failure.withOperation ("compiling query for " ++ repository.entity.name)) := by
    rw [Repository.plan, rejected]
    rfl
  unfold Repository.findMany
  rw [planned]
  rfl

/-- **Exactly the well-formed queries are accepted**, the others fail as the first requirement says
that they do not meet, and the limits only take plans away. -/
theorem compile_accepts (catalog : Catalog) (entity : String) (limits : Limits)
    (query : Request.Query) :
    ((∃ plan, compile catalog entity limits query = .ok plan) ↔
        WellFormed catalog entity limits query) ∧
      (∀ failure, compile catalog entity limits query = .error failure ↔
        Requirement.FirstViolated (requirements catalog entity limits query) failure) ∧
      (∀ plan, compile catalog entity limits query = .ok plan ↔
        Allowed limits query ∧ compile catalog entity {} query = .ok plan) ∧
      ∀ failure, compile catalog entity limits query = .error failure →
        failure.code.isValidation = true ∧
          ∀ root : Entity, root.name = entity → ∀ silence replies,
            (({ catalog, entity := root, limits } : Repository).findMany query).play silence
                replies =
              { result := .error (failure.withOperation ("compiling query for " ++ entity))
                sent := []
                unused := replies } := by
  have depends := depends_compile catalog entity limits query
  refine ⟨depends.exists_ok_iff.trans requirements_iff, fun failure => depends.eq_error_iff,
    fun plan => compile_of_limits, fun failure rejected => ⟨?_, ?_⟩⟩
  · obtain ⟨requirement, member, _, rfl⟩ := (depends.violated failure rejected).exists_violated
    exact isValidation_of_mem requirement member
  · rintro root rfl silence replies
    exact play_findMany_of_rejected rejected silence replies

/-- Both the nested load and the relation of the second directive are wrong; the limit of the nested
load is looked at first. -/
theorem compile_accepts_posts :
    let catalog := Catalog.ofList
      [{ name := "Post", table := "posts",
         relations := [.oneToMany "comments" "Comment" "post_id"] },
       { name := "Comment", table := "comments",
         relations := [.manyToOne "author" "User" "user_id"] }]
    let limits : Limits := { relationLimit := some 10, eagerLoads := some 2 }
    let query := ((({} : Request.Query).withLoad { relation := "comments", direction := " desc" }
      ).withExistence { relation := "comments", load := some { relation := "author", limit := 20 } }
      ).withExistence { relation := "tags" }
    let failure := Failure.of (.limitExceeded "Limit for relation 'author'" 20 10)
    compile catalog "Post" limits query = .error failure ∧
      Requirement.FirstViolated (requirements catalog "Post" limits query) failure ∧
      ¬WellFormed catalog "Post" limits query ∧
      ∀ root : Entity, root.name = "Post" → ∀ replies,
        (({ catalog, entity := root, limits } : Repository).findMany query).play {} replies =
          { result := .error (failure.withOperation "compiling query for Post")
            sent := []
            unused := replies } := by
  intro catalog limits query failure
  have rejected : compile catalog "Post" limits query = .error failure := rfl
  obtain ⟨accepted, first, _, rejection⟩ := compile_accepts catalog "Post" limits query
  refine ⟨rejected, (first failure).1 rejected, fun wellFormed => ?_, fun root named replies => ?_⟩
  · obtain ⟨plan, ok⟩ := accepted.2 wellFormed
    exact nomatch rejected.symm.trans ok
  · exact (rejection failure rejected).2 root named {} replies

end Plan

end RequestQuery
