/-
# Which loads a plan has

Load directives and existence directives with nested loads are merged into one list of loads.  What
comes out is told here without the merging: which names there are and in which order, and for each
name which directives decide about its load (`EagerLoad.MergedFrom`).

Two rules work against each other.  Of several load directives on a relation the last one decides,
in the place of the first (`Ordered.get?_ofList`, `Ordered.names_ofList`).  Of several existence
directives the first one decides, and only where there is no load directive; the later ones add what
is nested in them, unless its name is taken (`get?_foldl_attach`, `find?_gathered`).  Existence
directives without a nested load have no part in it (`loads_of_accepted`).
-/
import Mathlib.Data.List.Forall2
import RequestQuery.Proofs.Ordered
import RequestQuery.Proofs.Plan.NestedLoads

namespace RequestQuery.Plan

set_option autoImplicit false

/-! ## What decides about a load -/

/-- The last load directive on a relation. -/
def lastLoad (query : Request.Query) (relation : String) : Option Request.Load :=
  (query.loads.filter (·.relation = relation)).getLast?

/-- The existence directives that have a nested load. -/
def nestings (query : Request.Query) : List Request.Existence :=
  query.existences.filter (·.load.isSome)

/-- The loads that are nested in existence directives on a relation. -/
def nestedOn (query : Request.Query) (relation : String) : List Request.Load :=
  (query.existences.filter (·.relation = relation)).filterMap (·.load)

/-- A join has the order and the limit of a load directive, and takes all related records. -/
structure Join.AskedBy (directive : Request.Load) (join : Join) : Prop where
  name : join.name = directive.relation
  order : ∃ order : SortOrder,
    Text.sameLetters (Text.trim directive.direction) order.keyword = true ∧
      join.order = { column := directive.key, order }
  limit : join.limit = some directive.limit
  constraint : join.constraint = .none

/-- The directive that decides which related records a load takes, and whether it is run. -/
inductive EagerLoad.Decided (query : Request.Query) (target : Entity) (load : EagerLoad) : Prop where
  /-- Of the load directives the last one. -/
  | explicit {directive : Request.Load} (last : lastLoad query load.join.name = some directive)
      (asked : load.join.AskedBy directive) (run : load.isEmpty = false)
  /-- Without any, of the existence directives with a nested load the first one. -/
  | existence {directive : Request.Existence}
      (unasked : load.join.name ∉ query.loads.map (·.relation))
      (first : firstNesting query load.join.name = some directive)
      (order : load.join.order = { column := target.primaryKey, order := .ascending })
      (limit : load.join.limit = none)
      (constraint : load.join.constraint = compared target directive)
      (empty : load.isEmpty = directive.negated)

/-- A load of a query.  The joins nested in it are those of all existence directives on its
relation, the first of each name, and they start from the entity that the relation leads to. -/
structure EagerLoad.MergedFrom (catalog : Catalog) (root : Entity) (query : Request.Query)
    (relation : Relation) (target : Entity) (load : EagerLoad) : Prop where
  follows : load.join.Follows catalog root relation target
  decided : load.Decided query target
  nestedNames : load.nested.map (·.name) =
    ((nestedOn query load.join.name).map (·.relation)).eraseDups
  nested : ∀ join ∈ load.nested, ∃ directive inner innermost,
    (nestedOn query load.join.name).find? (·.relation = join.name) = some directive ∧
      join.AskedBy directive ∧ join.Follows catalog target inner innermost

/-! ## Lists that correspond -/

section Corresponding

variable {α β : Type} {R : α → β → Prop} {as : List α} {bs : List β}

theorem rel_head? (each : List.Forall₂ R as bs) : Option.Rel R as.head? bs.head? := by
  cases each with
  | nil => exact .none
  | cons first _ => exact .some first

theorem rel_getLast? (each : List.Forall₂ R as bs) : Option.Rel R as.getLast? bs.getLast? := by
  rw [List.getLast?_eq_head?_reverse, List.getLast?_eq_head?_reverse]
  exact rel_head? (List.forall₂_reverse_iff.2 each)

theorem isSome_of_rel {a : Option α} {b : Option β} (related : Option.Rel R a b) :
    a.isSome = b.isSome := by
  cases related <;> rfl

theorem rel_filter_name (nameOf : α → String) (nameOf' : β → String)
    (same : ∀ {a b}, R a b → nameOf' b = nameOf a) (each : List.Forall₂ R as bs) (name : String) :
    List.Forall₂ R (as.filter (nameOf · = name)) (bs.filter (nameOf' · = name)) :=
  List.rel_filter (fun _ _ related => by simp [same related]) each

theorem map_eq_of_forall₂ {γ : Type} (f : α → γ) (g : β → γ) (same : ∀ {a b}, R a b → g b = f a)
    (each : List.Forall₂ R as bs) : bs.map g = as.map f := by
  induction each with
  | nil => rfl
  | cons first _ ih => rw [List.map_cons, List.map_cons, ih, same first]

end Corresponding

/-! ## Load directives -/

section Directives

variable {catalog : Catalog} {root : Entity}

theorem asked_joinOf {parent : Entity} {directive : Request.Load} {join : Join}
    (accepted : joinOf catalog parent directive = .ok join) : join.AskedBy directive := by
  obtain ⟨relation, target, order, related, direction, rfl⟩ := joinOf_eq_ok_iff.1 accepted
  have keyword := SortOrder.parse?_eq_some_iff.1 direction
  exact ⟨Catalog.name_of_related related, ⟨order, keyword, rfl⟩, rfl, rfl⟩

theorem names_explicitLoads {asked : List Request.Load} {loads : Ordered EagerLoad}
    (accepted : explicitLoads catalog root asked = .ok loads) :
    loads.names = (asked.map (·.relation)).eraseDups := by
  obtain ⟨joins, joined, made⟩ := Outcome.bind_eq_ok_iff.1 accepted
  have named : joins.map (·.name) = asked.map (·.relation) :=
    map_eq_of_forall₂ (·.relation) (·.name) name_of_joinOf (Outcome.mapM_eq_ok_iff.1 joined)
  rw [← Outcome.pure_eq_ok_iff.1 made, Ordered.names_ofList, ← named, Ordered.names, List.map_map]
  rfl

/-- The load of a relation is that of the last directive on it, and nothing is nested in it. -/
theorem get?_explicitLoads {asked : List Request.Load} {loads : Ordered EagerLoad}
    (accepted : explicitLoads catalog root asked = .ok loads) (name : String) :
    Option.Rel
      (fun directive load => ∃ join, joinOf catalog root directive = .ok join ∧
        load = ({ join } : EagerLoad))
      (asked.filter (·.relation = name)).getLast? (loads.get? name) := by
  obtain ⟨joins, joined, made⟩ := Outcome.bind_eq_ok_iff.1 accepted
  have each : List.Forall₂
      (fun (directive : Request.Load) (entry : String × EagerLoad) => ∃ join,
        joinOf catalog root directive = .ok join ∧ entry = (join.name, { join }))
      asked (joins.map fun join => (join.name, { join })) :=
    List.forall₂_map_right_iff.2
      ((Outcome.mapM_eq_ok_iff.1 joined).imp fun _ join made => ⟨join, made, rfl⟩)
  have named : ∀ {directive : Request.Load} {entry : String × EagerLoad},
      (∃ join, joinOf catalog root directive = .ok join ∧ entry = (join.name, { join })) →
        entry.1 = directive.relation := by
    rintro directive _ ⟨join, accepted, rfl⟩
    exact name_of_joinOf accepted
  have last := rel_getLast? (rel_filter_name (·.relation) (·.1) named each name)
  rw [← Outcome.pure_eq_ok_iff.1 made, Ordered.get?_ofList]
  generalize (asked.filter (·.relation = name)).getLast? = directive at last
  generalize List.getLast? (List.filter _ (joins.map _)) = entry at last
  cases last with
  | none => exact .none
  | some found =>
      obtain ⟨join, made, rfl⟩ := found
      exact .some ⟨join, made, rfl⟩

end Directives

/-! ## Existence directives -/

section Nestings

variable {catalog : Catalog} {root : Entity}

/-- What an existence directive with a nested load brings along. -/
inductive Brings (catalog : Catalog) (root : Entity) (directive : Request.Existence) :
    EagerLoad → Prop where
  | of {relation : Relation} {target : Entity} {nested : Request.Load} {join : Join}
      (related : catalog.related root directive.relation = .ok (relation, target))
      (asked : directive.load = some nested) (joined : joinOf catalog target nested = .ok join) :
      Brings catalog root directive (scopedLoad relation target directive join)

theorem Brings.name {directive : Request.Existence} {load : EagerLoad}
    (brings : Brings catalog root directive load) : load.join.name = directive.relation := by
  obtain ⟨related, _, _⟩ := brings
  exact Catalog.name_of_related related

variable {directives : List Request.Existence} {items : List ResolvedExistence}
  {loads : List EagerLoad}

/-- Each existence directive with a nested load brings one load along, and no other directive
does. -/
theorem brings_of_resolved
    (resolved : List.Forall₂
      (fun directive item => resolveExistence catalog root directive = .ok item)
      directives items) :
    List.Forall₂ (Brings catalog root) (directives.filter (·.load.isSome))
      (items.filterMap (·.load)) := by
  induction resolved with
  | nil => exact .nil
  | @cons directive item _ _ accepted _ ih =>
      obtain ⟨relation, target, nested, related, joined, rfl⟩ :=
        resolveExistence_eq_ok_iff.1 accepted
      have each := Outcome.optionMapM_eq_ok_iff.1 joined
      cases asked : directive.load with
      | none =>
          rw [asked] at each
          cases each
          rw [List.filter_cons_of_neg (by simp [asked])]
          exact ih
      | some inner =>
          rw [asked] at each
          cases each with
          | some made =>
              rw [List.filter_cons_of_pos (by simp [asked])]
              exact .cons (.of related asked made) ih

/-- The joins of the loads that are brought along for one relation. -/
theorem joins_of_brings {name : String} {relation : Relation} {target : Entity}
    (related : catalog.related root name = .ok (relation, target))
    (each : List.Forall₂ (Brings catalog root) directives loads)
    (same : ∀ directive ∈ directives, directive.relation = name) :
    List.Forall₂ (fun directive join => joinOf catalog target directive = .ok join)
      (directives.filterMap (·.load)) (loads.flatMap (·.nested)) := by
  induction each with
  | nil => exact .nil
  | cons first _ ih =>
      rw [List.forall_mem_cons] at same
      obtain ⟨related', asked, joined⟩ := first
      rw [same.1, related, Except.ok.injEq, Prod.mk.injEq] at related'
      obtain ⟨rfl, rfl⟩ := related'
      rw [List.filterMap_cons_some asked, List.flatMap_cons]
      exact .cons joined (ih same.2)

end Nestings

/-! ## Merging -/

section Merging

theorem names_attach (loads : Ordered EagerLoad) (load : EagerLoad) :
    (attach loads load).names =
      if load.join.name ∈ loads.names then loads.names else loads.names ++ [load.join.name] := by
  unfold attach
  split
  next missing =>
    exact Ordered.names_put loads _ _
  next present found =>
    exact Ordered.names_put loads _ _

theorem names_mergedLoads {explicit : Ordered EagerLoad} (distinct : explicit.Distinct)
    (items : List ResolvedExistence) :
    (mergedLoads explicit items).names =
      (explicit.names ++ (items.filterMap (·.load)).map (·.join.name)).eraseDups :=
  names_foldl Ordered.names names_attach distinct _

theorem names_addNested {present added : List Join} (first : (present.map (·.name)).Nodup)
    (second : (added.map (·.name)).Nodup) :
    (addNested present added).map (·.name) =
      (present.map (·.name) ++ added.map (·.name)).eraseDups := by
  have kept : (added.filter fun join => !present.any (·.name = join.name)).map (·.name) =
      (added.map (·.name)).removeAll (present.map (·.name)) := by
    rw [List.removeAll, List.filter_map]
    congr 1
    refine List.filter_congr fun join _ => ?_
    simp [List.any_eq, eq_comm]
  have apart : ((added.map (·.name)).removeAll (present.map (·.name))).Nodup :=
    second.sublist List.filter_sublist
  rw [eraseDups_append_of_nodup first, eraseDups_of_nodup apart, ← kept, addNested,
    List.map_append]

theorem find?_addNested (present added : List Join) (name : String) :
    (addNested present added).find? (·.name = name) =
      (present ++ added).find? (·.name = name) := by
  rw [addNested, List.find?_append, List.find?_append]
  cases found : present.find? (·.name = name) with
  | some join => rfl
  | none =>
      have absent : ∀ join ∈ present, join.name ≠ name := by simpa using found
      rw [Option.none_or, Option.none_or, List.find?_filter]
      congr 1
      funext join
      by_cases same : join.name = name
      · subst same
        simpa using absent
      · simp [same]

variable {first : EagerLoad} {later : List EagerLoad}

theorem names_gathered
    (distinct : ∀ load ∈ first :: later, (load.nested.map (·.name)).Nodup) :
    (gathered first later).nested.map (·.name) =
      (((first :: later).flatMap (·.nested)).map (·.name)).eraseDups := by
  rw [List.forall_mem_cons] at distinct
  obtain ⟨own, others⟩ := distinct
  rw [List.flatMap_cons, List.map_append]
  change (later.foldl (fun nested load => addNested nested load.nested) first.nested).map _ = _
  generalize first.nested = nested at own ⊢
  induction later generalizing nested with
  | nil =>
      rw [List.foldl_nil, List.flatMap_nil, List.map_nil, List.append_nil, eraseDups_of_nodup own]
  | cons load later ih =>
      rw [List.forall_mem_cons] at others
      have added := names_addNested own others.1
      rw [List.foldl_cons, ih others.2 _ (added ▸ nodup_eraseDups _), added,
        eraseDups_eraseDups_append, List.flatMap_cons, List.map_append, List.append_assoc]

/-- **Of the joins of one name the first is kept.** -/
theorem find?_gathered (name : String) :
    (gathered first later).nested.find? (·.name = name) =
      ((first :: later).flatMap (·.nested)).find? (·.name = name) := by
  rw [List.flatMap_cons]
  change (later.foldl (fun nested load => addNested nested load.nested) first.nested).find? _ = _
  generalize first.nested = nested
  induction later generalizing nested with
  | nil => rw [List.foldl_nil, List.flatMap_nil, List.append_nil]
  | cons load later ih =>
      rw [List.foldl_cons, ih, List.find?_append, find?_addNested, ← List.find?_append,
        List.flatMap_cons, List.append_assoc]

end Merging

/-! ## The loads of a plan -/

section Loads

variable {catalog : Catalog} {root : Entity} {query : Request.Query}

theorem filterMap_filter_isSome {α β : Type} (f : α → Option β) (items : List α) :
    (items.filter fun item => (f item).isSome).filterMap f = items.filterMap f := by
  induction items with
  | nil => rfl
  | cons item items ih => cases image : f item <;> simp [image, ih]

theorem filterMap_nestings (query : Request.Query) (name : String) :
    ((nestings query).filter (·.relation = name)).filterMap (·.load) = nestedOn query name := by
  rw [nestings, List.filter_comm, filterMap_filter_isSome, nestedOn]

theorem head?_nestings (query : Request.Query) (name : String) :
    ((nestings query).filter (·.relation = name)).head? = firstNesting query name := by
  rw [List.head?_filter, nestings, List.find?_filter, firstNesting]
  congr 1
  funext directive
  simp [and_comm]

theorem find?_name_of_mem {joins : List Join} (distinct : (joins.map (·.name)).Nodup) {join : Join}
    (member : join ∈ joins) : joins.find? (·.name = join.name) = some join := by
  induction joins with
  | nil => cases member
  | cons other joins ih =>
      obtain ⟨fresh, rest⟩ := List.nodup_cons.1 distinct
      rcases List.mem_cons.1 member with rfl | later
      · rw [List.find?_cons_of_pos (by simp)]
      · have apart : other.name ≠ join.name := fun same =>
          fresh (List.mem_map.2 ⟨join, later, same.symm⟩)
        rw [List.find?_cons_of_neg (by simpa using apart), ih rest later]

theorem nodup_nested_of_brings {directives : List Request.Existence} {loads : List EagerLoad}
    (each : List.Forall₂ (Brings catalog root) directives loads) :
    ∀ load ∈ loads, (load.nested.map (·.name)).Nodup := by
  induction each with
  | nil => exact List.forall_mem_nil _
  | cons first _ ih =>
      obtain ⟨_, _, _⟩ := first
      exact List.forall_mem_cons.2 ⟨List.nodup_singleton _, ih⟩

variable {explicit : Ordered EagerLoad} {items : List ResolvedExistence}

/-- The joins that are nested in a load, by the directives that they come from. -/
theorem nested_of_joins {target : Entity} {load : EagerLoad} {loads : List EagerLoad}
    {asked : List Request.Load}
    (joins : List.Forall₂ (fun directive join => joinOf catalog target directive = .ok join)
      asked (loads.flatMap (·.nested)))
    (names : load.nested.map (·.name) = ((loads.flatMap (·.nested)).map (·.name)).eraseDups)
    (firsts : ∀ name, load.nested.find? (·.name = name) =
      (loads.flatMap (·.nested)).find? (·.name = name)) :
    load.nested.map (·.name) = (asked.map (·.relation)).eraseDups ∧
      ∀ join ∈ load.nested, ∃ directive inner innermost,
        asked.find? (·.relation = join.name) = some directive ∧
          join.AskedBy directive ∧ join.Follows catalog target inner innermost := by
  refine ⟨by
    rw [names, map_eq_of_forall₂ (·.relation) (·.name) name_of_joinOf joins], fun join member => ?_⟩
  have distinct : (load.nested.map (·.name)).Nodup := names ▸ nodup_eraseDups _
  have found := (firsts join.name).symm.trans (find?_name_of_mem distinct member)
  have first := rel_head? (rel_filter_name (·.relation) (·.name) name_of_joinOf joins join.name)
  rw [List.head?_filter, List.head?_filter, found] at first
  generalize asked.find? (·.relation = join.name) = directive at first ⊢
  cases first with
  | some accepted =>
      obtain ⟨inner, innermost, follows⟩ := follows_joinOf accepted
      exact ⟨_, inner, innermost, rfl, asked_joinOf accepted, follows⟩

theorem unasked_of_lastLoad {name : String} (none : lastLoad query name = none) :
    name ∉ query.loads.map (·.relation) := by
  intro member
  obtain ⟨directive, asked, same⟩ := List.mem_map.1 member
  have kept : directive ∈ query.loads.filter (·.relation = name) :=
    List.mem_filter.2 ⟨asked, by simpa using same⟩
  rw [List.getLast?_eq_none_iff.1 none] at kept
  cases kept

/-- The first of the loads that are merged under a name is the one that is decided about. -/
theorem decided_of_candidates {name : String} {present : Option EagerLoad}
    {loads later : List EagerLoad} {first : EagerLoad} {relation : Relation} {target : Entity}
    (own : Option.Rel
      (fun directive load => ∃ join, joinOf catalog root directive = .ok join ∧
        load = ({ join } : EagerLoad)) (lastLoad query name) present)
    (front : Option.Rel (Brings catalog root) (firstNesting query name) loads.head?)
    (candidates : present.toList ++ loads = first :: later) (named : first.join.name = name)
    (related : catalog.related root name = .ok (relation, target)) :
    (gathered first later).Decided query target := by
  subst named
  cases last : lastLoad query first.join.name with
  | some directive =>
      rw [last] at own
      cases own with
      | some made =>
          obtain ⟨join, accepted, rfl⟩ := made
          obtain ⟨rfl, _⟩ := List.cons.inj candidates
          exact .explicit last (asked_joinOf accepted) rfl
  | none =>
      rw [last] at own
      cases own
      obtain rfl : loads = first :: later := candidates
      have unasked := unasked_of_lastLoad last
      cases head : firstNesting query first.join.name with
      | none =>
          rw [head] at front
          cases front
      | some directive =>
          rw [head] at front
          cases front with
          | some brings =>
              have same := brings.name
              obtain ⟨related', _, _⟩ := brings
              rw [← same, related, Except.ok.injEq, Prod.mk.injEq] at related'
              obtain ⟨rfl, rfl⟩ := related'
              exact .existence unasked head rfl rfl rfl rfl

/-- **A load that is found under a name after merging** comes from the directives on its relation. -/
theorem mergedFrom_of_get? (loaded : explicitLoads catalog root query.loads = .ok explicit)
    (resolved : List.Forall₂
      (fun directive item => resolveExistence catalog root directive = .ok item)
      query.existences items) {load : EagerLoad}
    (found : (mergedLoads explicit items).get? load.join.name = some load) {relation : Relation}
    {target : Entity} (follows : load.join.Follows catalog root relation target) :
    load.MergedFrom catalog root query relation target := by
  have related := follows.related
  generalize named : load.join.name = name at found related
  have own := get?_explicitLoads loaded name
  have brought : List.Forall₂ (Brings catalog root)
      ((nestings query).filter (·.relation = name))
      ((items.filterMap (·.load)).filter (·.join.name = name)) :=
    rel_filter_name (·.relation) (·.join.name) Brings.name (brings_of_resolved resolved) name
  have joins := joins_of_brings related brought
    fun directive member => by simpa using (List.mem_filter.1 member).2
  have front := rel_head? brought
  have single := nodup_nested_of_brings brought
  rw [filterMap_nestings] at joins
  rw [head?_nestings] at front
  rw [mergedLoads, get?_foldl_attach] at found
  generalize (items.filterMap (·.load)).filter (·.join.name = name) = loads at *
  generalize explicit.get? name = present at own found
  cases candidates : present.toList ++ loads with
  | nil =>
      rw [candidates] at found
      cases found
  | cons first later =>
      rw [candidates] at found
      obtain rfl := Option.some.inj found
      have alone : ∀ load ∈ present.toList, load.nested = [] := by
        intro load member
        rw [Option.mem_toList.1 member] at own
        generalize List.getLast? _ = directive at own
        cases own with
        | some made =>
            obtain ⟨join, _, rfl⟩ := made
            rfl
      have flat : (first :: later).flatMap (·.nested) = loads.flatMap (·.nested) := by
        rw [← candidates, List.flatMap_append, List.flatMap_eq_nil_iff.2 alone, List.nil_append]
      have distinct : ∀ load ∈ first :: later, (load.nested.map (·.name)).Nodup := by
        rw [← candidates, List.forall_mem_append]
        refine ⟨fun load member => ?_, single⟩
        rw [alone load member]
        exact List.nodup_nil
      obtain ⟨names, nested⟩ := nested_of_joins joins
        (flat ▸ names_gathered distinct) (fun name => flat ▸ find?_gathered name)
      exact ⟨follows, decided_of_candidates own front candidates named related, named ▸ names,
        named ▸ nested⟩

/-- Existence directives without a nested load do not change the loads. -/
theorem compile_nestings {entity : String} {limits : Limits} {plan : Plan}
    (accepted : compile catalog entity limits query = .ok plan) :
    ∃ other, compile catalog entity limits { query with existences := nestings query } =
      .ok other ∧ other.loads = plan.loads := by
  obtain ⟨root, explicit, items, found, few, small, loaded, resolved, rfl⟩ :=
    compile_eq_ok_iff.1 accepted
  have same : directives { query with existences := nestings query } = directives query :=
    congrArg (query.loads ++ ·) (filterMap_filter_isSome _ _)
  have fewer : checkRelationLimit limits { query with existences := nestings query } = .ok () := by
    unfold checkRelationLimit at few ⊢
    rwa [same]
  have smaller : checkEagerLoads limits { query with existences := nestings query } = .ok () := by
    unfold checkEagerLoads at small ⊢
    rwa [same]
  have kept : List.Forall₂
      (fun directive item => resolveExistence catalog root directive = .ok item)
      (nestings query) (items.filter (·.load.isSome)) := by
    refine List.rel_filter (fun directive item accepted => ?_) resolved
    have alike := isSome_of_rel (load_of_resolveExistence accepted)
    exact iff_of_eq (congrArg (· = true) alike)
  have merged : mergedLoads explicit (items.filter (·.load.isSome)) = mergedLoads explicit items :=
    congrArg (·.foldl attach explicit) (filterMap_filter_isSome _ _)
  refine ⟨_, compile_eq_ok_iff.2
    ⟨root, explicit, _, found, fewer, smaller, loaded, kept, rfl⟩, ?_⟩
  change (mergedLoads explicit (items.filter (·.load.isSome))).map (·.2) = _
  rw [merged]
  rfl

end Loads

/-- **The loads of a query that is accepted.**  The relations of the load directives come first,
then those that only existence directives with a nested load are about, each where it occurs first.
No name occurs twice, at either level; deeper than that nothing is nested, because a nested join has
no joins of its own.  Each load is decided by the directives on its relation alone, and the
existence directives without a nested load could as well be left out. -/
theorem loads_of_accepted {catalog : Catalog} {entity : String} {limits : Limits}
    {query : Request.Query} {plan : Plan}
    (accepted : compile catalog entity limits query = .ok plan) :
    plan.relationNames =
        (query.loads.map (·.relation)).eraseDups ++
          (((nestings query).map (·.relation)).removeAll (query.loads.map (·.relation))).eraseDups ∧
      plan.relationNames.Nodup ∧
      (∀ load ∈ plan.loads, (load.nested.map (·.name)).Nodup) ∧
      (∃ root, catalog.entity? entity = some root ∧ ∀ load ∈ plan.loads, ∃ relation target,
        load.MergedFrom catalog root query relation target) ∧
      ∃ other, compile catalog entity limits { query with existences := nestings query } =
        .ok other ∧ other.loads = plan.loads := by
  obtain ⟨_, _, distinct, _⟩ := loads_resolved accepted
  have alike := compile_nestings accepted
  obtain ⟨root, explicit, items, found, _, _, loaded, resolved, rfl⟩ :=
    compile_eq_ok_iff.1 accepted
  have merged := (LoadsResolved.explicitLoads loaded).mergedLoads resolved
  have brought : (items.filterMap (·.load)).map (·.join.name) =
      (nestings query).map (·.relation) :=
    map_eq_of_forall₂ (·.relation) (·.join.name) Brings.name (brings_of_resolved resolved)
  have names : (assembled root query ((mergedLoads explicit items).map (·.2))
      (items.map (·.condition))).relationNames = (mergedLoads explicit items).names := by
    simp only [relationNames, assembled, List.map_map, Ordered.names]
    exact List.map_congr_left merged.named
  have each : ∀ load ∈ (mergedLoads explicit items).map (·.2), ∃ relation target,
      load.MergedFrom catalog root query relation target := by
    intro load member
    obtain ⟨entry, kept, rfl⟩ := List.mem_map.1 member
    obtain ⟨target, load⟩ := merged.resolved entry kept
    obtain ⟨relation, follows⟩ := load.follows
    have here : (mergedLoads explicit items).get? entry.2.join.name = some entry.2 := by
      rw [merged.named entry kept]
      exact Ordered.get?_of_mem merged.distinct kept
    exact ⟨relation, target, mergedFrom_of_get? loaded resolved here follows⟩
  refine ⟨?_, distinct, fun load member => ?_, ⟨root, found, each⟩, alike⟩
  · rw [names, names_mergedLoads (LoadsResolved.explicitLoads loaded).distinct,
      names_explicitLoads loaded, brought, eraseDups_eraseDups_append, List.eraseDups_append]
  · obtain ⟨relation, target, load⟩ := each load member
    exact load.nestedNames ▸ nodup_eraseDups _

/-- Posts are asked for twice and the comments on them once; the role of a user is only there for
the users that have it. -/
theorem loads_of_accepted_posts :
    let catalog := Catalog.ofList
      [{ name := "User", table := "users",
         relations := [.oneToMany "posts" "Post" "user_id", .manyToOne "role" "Role" "role_id"] },
       { name := "Post", table := "posts",
         relations := [.oneToMany "comments" "Comment" "post_id"] },
       { name := "Comment", table := "comments" },
       { name := "Role", table := "roles", relations := [.oneToMany "users" "User" "role_id"] }]
    let query : Request.Query :=
      { loads :=
          [{ relation := "posts" },
           { relation := "posts", key := "title", direction := " Desc ", limit := 3 }]
        existences :=
          [{ relation := "role", negated := true, load := some { relation := "users" } },
           { relation := "posts", load := some { relation := "comments" } }] }
    ∃ plan, compile catalog "User" {} query = .ok plan ∧
      plan.relationNames = ["posts", "role"] ∧
        ∀ load ∈ plan.loads, load.join.name = "posts" →
          load.join.order = { column := "title", order := .descending } ∧
            load.join.limit = some 3 := by
  intro catalog query
  have accepted : ∃ plan, compile catalog "User" {} query = .ok plan := ⟨_, rfl⟩
  obtain ⟨plan, accepted⟩ := accepted
  obtain ⟨names, _, _, ⟨root, _, each⟩, _⟩ := loads_of_accepted accepted
  refine ⟨plan, accepted, names, fun load member posts => ?_⟩
  obtain ⟨relation, target, merged⟩ := each load member
  cases merged.decided with
  | explicit last asked _ =>
      rw [posts] at last
      cases last
      obtain ⟨order, keyword, same⟩ := asked.order
      cases order with
      | ascending => exact absurd keyword (by decide +kernel)
      | descending => exact ⟨same, asked.limit⟩
  | existence unasked _ _ _ _ _ => exact absurd posts fun posts => unasked (by simp [posts, query])

end RequestQuery.Plan
