/-
# How many loads a plan has

The cap on loads is held against the directives of a query, before they are merged.  Loads are told
apart by their places: a relation of the root, or a relation below one.  In a plan each place is
taken once (`nodup_paths`), and merging neither adds a place nor loses one
(`mem_paths_mergedLoads`), so directives that ask for the same place are one load of the plan.

A load that is nested in an existence directive needs a place that nobody asked for, if its relation
is not loaded explicitly: the relation is then fetched for the nested load alone (`carriers`).  The
plan has one load for each of these relations on top of those that were counted, and is within the
cap for certain only if there are none of them (`loadCount_of_accepted`).
-/
import Mathlib.Algebra.GroupWithZero.Nat
import Mathlib.Data.List.Dedup
import Mathlib.Data.List.Perm.Basic
import RequestQuery.Proofs.Plan.NestedLoads

namespace RequestQuery.Plan

set_option autoImplicit false

/-! ## Places -/

/-- The places of a load and of those nested in it. -/
def EagerLoad.paths (load : EagerLoad) : List (List String) :=
  [load.join.name] :: (load.nested.map (·.name)).map fun inner => [load.join.name, inner]

/-- How many loads a plan has, the nested ones included. -/
def loadCount (plan : Plan) : Nat :=
  (plan.loads.map fun load => 1 + load.nested.length).sum

/-- The places that the directives of a query ask for, one for each directive. -/
def askedPaths (query : Request.Query) : List (List String) :=
  query.loads.map (fun load => [load.relation]) ++
    query.existences.filterMap fun directive =>
      directive.load.map fun nested => [directive.relation, nested.relation]

/-- The relations that are fetched for the sake of a nested load alone. -/
def carriers (query : Request.Query) : List String :=
  (query.existences.filter fun directive =>
    directive.load.isSome ∧ directive.relation ∉ query.loads.map (·.relation)).map (·.relation)

theorem EagerLoad.mem_paths {load : EagerLoad} {path : List String} :
    path ∈ load.paths ↔
      path = [load.join.name] ∨
        ∃ inner ∈ load.nested.map (·.name), path = [load.join.name, inner] := by
  simp [paths, eq_comm]

theorem EagerLoad.nodup_paths {load : EagerLoad} (distinct : (load.nested.map (·.name)).Nodup) :
    load.paths.Nodup := by
  refine List.nodup_cons.2 ⟨by simp, ?_⟩
  exact distinct.map fun _ _ alike => by simpa using alike

theorem length_flatMap_paths (loads : List EagerLoad) :
    (loads.flatMap EagerLoad.paths).length =
      (loads.map fun load => 1 + load.nested.length).sum := by
  rw [List.length_flatMap]
  congr 1
  refine List.map_congr_left fun load _ => ?_
  rw [EagerLoad.paths, List.length_cons, List.length_map, List.length_map, Nat.add_comm]

theorem length_askedPaths (query : Request.Query) :
    (askedPaths query).length = (directives query).length := by
  have nested : (query.existences.filterMap fun directive =>
      directive.load.map fun nested => [directive.relation, nested.relation]).length =
        (query.existences.filterMap (·.load)).length := by
    induction query.existences with
    | nil => rfl
    | cons directive others ih => cases asked : directive.load <;> simp [asked, ih]
  rw [askedPaths, directives, List.length_append, List.length_append, List.length_map, nested]

theorem length_carriers_le (query : Request.Query) :
    (carriers query).length ≤ (directives query).length := by
  have each : (query.existences.filter fun directive =>
      directive.load.isSome ∧ directive.relation ∉ query.loads.map (·.relation)).length ≤
        (query.existences.filterMap (·.load)).length := by
    rw [List.length_filterMap_eq_countP, ← List.countP_eq_length_filter]
    exact List.countP_mono_left fun directive _ kept => by
      simp only [decide_eq_true_eq] at kept
      exact kept.1
  rw [carriers, List.length_map, directives, List.length_append]
  omega

/-! ## Merging -/

section Merging

variable {catalog : Catalog} {root : Entity}

/-- Gathering loads of one relation keeps their places. -/
theorem mem_paths_gathered {first : EagerLoad} {later : List EagerLoad} {name : String}
    (named : ∀ load ∈ first :: later, load.join.name = name) {path : List String} :
    path ∈ (gathered first later).paths ↔ ∃ load ∈ first :: later, path ∈ load.paths := by
  have front := named first List.mem_cons_self
  have whole : (gathered first later).join.name = name := front
  simp only [EagerLoad.mem_paths, mem_nested_gathered, whole]
  constructor
  · rintro (own | ⟨inner, ⟨load, member, nested⟩, below⟩)
    · exact ⟨first, List.mem_cons_self, .inl (front ▸ own)⟩
    · exact ⟨load, member, .inr ⟨inner, nested, named load member ▸ below⟩⟩
  · rintro ⟨load, member, own | ⟨inner, nested, below⟩⟩
    · exact .inl (named load member ▸ own)
    · exact .inr ⟨inner, ⟨load, member, nested⟩, named load member ▸ below⟩

theorem LoadsResolved.mem_paths_iff {loads : Ordered EagerLoad}
    (h : LoadsResolved catalog root loads) {path : List String} :
    path ∈ (loads.map (·.2)).flatMap EagerLoad.paths ↔
      ∃ name load, loads.get? name = some load ∧ path ∈ load.paths := by
  rw [List.mem_flatMap]
  constructor
  · rintro ⟨load, member, here⟩
    obtain ⟨entry, kept, rfl⟩ := List.mem_map.1 member
    exact ⟨entry.1, entry.2, Ordered.get?_of_mem h.distinct kept, here⟩
  · rintro ⟨name, load, found, here⟩
    exact ⟨load, List.mem_map_of_mem (Ordered.mem_of_get? found), here⟩

/-- **Merging neither adds a place nor loses one.** -/
theorem mem_paths_mergedLoads {explicit : Ordered EagerLoad} {items : List ResolvedExistence}
    (before : LoadsResolved catalog root explicit)
    (after : LoadsResolved catalog root (mergedLoads explicit items)) {path : List String} :
    path ∈ ((mergedLoads explicit items).map (·.2)).flatMap EagerLoad.paths ↔
      path ∈ (explicit.map (·.2)).flatMap EagerLoad.paths ∨
        path ∈ (items.filterMap (·.load)).flatMap EagerLoad.paths := by
  have sources : ∀ name, (∃ load, (mergedLoads explicit items).get? name = some load ∧
      path ∈ load.paths) ↔
        ∃ load ∈ (explicit.get? name).toList ++
          (items.filterMap (·.load)).filter (·.join.name = name), path ∈ load.paths := by
    intro name
    have named : ∀ load ∈ (explicit.get? name).toList ++
        (items.filterMap (·.load)).filter (·.join.name = name), load.join.name = name := by
      intro load member
      rcases List.mem_append.1 member with own | brought
      · exact before.named _ (Ordered.mem_of_get? (Option.mem_toList.1 own))
      · simpa using (List.mem_filter.1 brought).2
    rw [mergedLoads, get?_foldl_attach]
    cases candidates : (explicit.get? name).toList ++
        (items.filterMap (·.load)).filter (·.join.name = name) with
    | nil => simp
    | cons first later =>
        rw [← mem_paths_gathered (candidates ▸ named)]
        simp
  rw [after.mem_paths_iff, before.mem_paths_iff, List.mem_flatMap]
  constructor
  · rintro ⟨name, merged⟩
    obtain ⟨load, member, here⟩ := (sources name).1 merged
    rcases List.mem_append.1 member with own | brought
    · exact .inl ⟨name, load, Option.mem_toList.1 own, here⟩
    · exact .inr ⟨load, (List.mem_filter.1 brought).1, here⟩
  · rintro (⟨name, load, own, here⟩ | ⟨load, brought, here⟩)
    · exact ⟨name, (sources name).2
        ⟨load, List.mem_append_left _ (Option.mem_toList.2 own), here⟩⟩
    · exact ⟨load.join.name, (sources _).2
        ⟨load, List.mem_append_right _ (List.mem_filter.2 ⟨brought, by simp⟩), here⟩⟩

/-- Nothing is nested in an explicit load. -/
theorem mem_paths_explicitLoads {asked : List Request.Load} {explicit : Ordered EagerLoad}
    (accepted : explicitLoads catalog root asked = .ok explicit) {path : List String} :
    path ∈ (explicit.map (·.2)).flatMap EagerLoad.paths ↔
      ∃ name ∈ asked.map (·.relation), path = [name] := by
  have resolved := LoadsResolved.explicitLoads accepted
  have alone : ∀ name load, explicit.get? name = some load → load.paths = [[name]] := by
    intro name load found
    have member := Ordered.mem_of_get? found
    obtain ⟨joins, _, made⟩ := Outcome.bind_eq_ok_iff.1 accepted
    rw [← Outcome.pure_eq_ok_iff.1 made] at member
    obtain ⟨join, _, same⟩ := List.mem_map.1 (Ordered.mem_ofList member)
    cases same
    rfl
  have taken : ∀ name, name ∈ asked.map (·.relation) ↔ ∃ load, explicit.get? name = some load := by
    intro name
    rw [← (of_explicitLoads accepted).1, ← Option.ne_none_iff_exists', ne_eq,
      Ordered.get?_eq_none_iff, not_not]
  rw [resolved.mem_paths_iff]
  constructor
  · rintro ⟨name, load, found, here⟩
    rw [alone name load found, List.mem_singleton] at here
    exact ⟨name, (taken name).2 ⟨load, found⟩, here⟩
  · rintro ⟨name, among, rfl⟩
    obtain ⟨load, found⟩ := (taken name).1 among
    exact ⟨name, load, found, alone name load found ▸ List.mem_singleton_self _⟩

/-- An existence directive with a nested load brings two places along. -/
theorem paths_brought {directives : List Request.Existence} {items : List ResolvedExistence}
    (resolved : List.Forall₂
      (fun directive item => resolveExistence catalog root directive = .ok item)
      directives items) :
    (items.filterMap (·.load)).flatMap EagerLoad.paths =
      directives.flatMap fun directive => directive.load.toList.flatMap fun nested =>
        [[directive.relation], [directive.relation, nested.relation]] := by
  induction resolved with
  | nil => rfl
  | @cons directive item _ _ accepted _ ih =>
      have brought := load_of_resolveExistence accepted
      rw [List.filterMap_cons, List.flatMap_cons, ← ih]
      generalize item.load = load at brought ⊢
      generalize directive.load = nested at brought ⊢
      cases brought with
      | none => rfl
      | @some nested load facts =>
          obtain ⟨named, _, inner⟩ := facts
          rw [List.flatMap_cons, EagerLoad.paths, inner, named]
          rfl

end Merging

/-! ## Counting -/

/-- Each place of a plan is taken once. -/
theorem nodup_paths {catalog : Catalog} {entity : String} {limits : Limits}
    {query : Request.Query} {plan : Plan}
    (accepted : compile catalog entity limits query = .ok plan) :
    (plan.loads.flatMap EagerLoad.paths).Nodup := by
  obtain ⟨root, _, names, resolved⟩ := loads_resolved accepted
  refine List.nodup_flatMap.2 ⟨fun load member => ?_, ?_⟩
  · obtain ⟨target, load⟩ := resolved load member
    exact EagerLoad.nodup_paths load.distinct
  · refine (List.pairwise_map.1 names).imp fun {one other} apart => ?_
    intro path here there
    refine apart ?_
    rcases EagerLoad.mem_paths.1 here with rfl | ⟨_, _, rfl⟩ <;>
      rcases EagerLoad.mem_paths.1 there with same | ⟨_, _, same⟩ <;>
      simp_all

theorem mem_carriers {query : Request.Query} {name : String} :
    name ∈ carriers query ↔
      name ∉ query.loads.map (·.relation) ∧
        ∃ directive ∈ query.existences, directive.load.isSome ∧ directive.relation = name := by
  simp only [carriers, List.mem_map, List.mem_filter, decide_eq_true_eq]
  constructor
  · rintro ⟨directive, ⟨member, brings, fresh⟩, rfl⟩
    exact ⟨by simpa using fresh, directive, member, brings, rfl⟩
  · rintro ⟨fresh, directive, member, brings, rfl⟩
    exact ⟨directive, ⟨member, brings, by simpa using fresh⟩, rfl⟩

theorem mem_askedPaths {query : Request.Query} {path : List String} :
    path ∈ askedPaths query ↔
      (∃ name ∈ query.loads.map (·.relation), path = [name]) ∨
        ∃ directive ∈ query.existences, ∃ nested, directive.load = some nested ∧
          path = [directive.relation, nested.relation] := by
  simp only [askedPaths, List.mem_append, List.mem_map, List.mem_filterMap,
    Option.map_eq_some_iff, exists_exists_and_eq_and, eq_comm (a := path)]

/-- **The places of a plan** are those that are asked for, and the relations that only nested loads
need. -/
theorem mem_paths_of_accepted {catalog : Catalog} {entity : String} {limits : Limits}
    {query : Request.Query} {plan : Plan}
    (accepted : compile catalog entity limits query = .ok plan) {path : List String} :
    path ∈ plan.loads.flatMap EagerLoad.paths ↔
      path ∈ askedPaths query ∨ path ∈ (carriers query).map ([·]) := by
  obtain ⟨root, explicit, resolved, _, _, _, loaded, directives, rfl⟩ :=
    compile_eq_ok_iff.1 accepted
  have before := LoadsResolved.explicitLoads loaded
  have merged : path ∈ _ ↔ _ := mem_paths_mergedLoads before (before.mergedLoads directives)
  rw [mem_paths_explicitLoads loaded, paths_brought directives] at merged
  change path ∈ ((mergedLoads explicit resolved).map (·.2)).flatMap EagerLoad.paths ↔ _
  simp only [merged, mem_askedPaths, List.mem_map (f := ([·])), mem_carriers, List.mem_flatMap,
    Option.mem_toList, List.mem_cons, List.not_mem_nil, or_false]
  constructor
  · rintro (own | ⟨directive, member, nested, brings, rfl | rfl⟩)
    · exact .inl (.inl own)
    · by_cases taken : directive.relation ∈ query.loads.map (·.relation)
      · exact .inl (.inl ⟨_, taken, rfl⟩)
      · exact .inr ⟨_, ⟨taken, directive, member, brings ▸ rfl, rfl⟩, rfl⟩
    · exact .inl (.inr ⟨directive, member, nested, brings, rfl⟩)
  · rintro ((own | ⟨directive, member, nested, brings, rfl⟩) |
      ⟨_, ⟨_, directive, member, brings, rfl⟩, rfl⟩)
    · exact .inl own
    · exact .inr ⟨directive, member, nested, brings, .inr rfl⟩
    · obtain ⟨nested, brings⟩ := Option.isSome_iff_exists.1 brings
      exact .inr ⟨directive, member, nested, brings, .inl rfl⟩

/-- What is counted and what is not are different places. -/
theorem nodup_askedPaths_carriers (query : Request.Query) :
    ((askedPaths query).dedup ++ (carriers query).dedup.map ([·])).Nodup := by
  refine List.nodup_append.2 ⟨List.nodup_dedup _,
    (List.nodup_dedup _).map fun _ _ alike => by simpa using alike, ?_⟩
  rintro path asked _ placed rfl
  obtain ⟨name, carried, rfl⟩ := List.mem_map.1 placed
  rcases mem_askedPaths.1 (List.mem_dedup.1 asked) with ⟨_, taken, same⟩ | ⟨_, _, _, _, same⟩
  · exact (mem_carriers.1 (List.mem_dedup.1 carried)).1 (List.singleton_inj.1 same ▸ taken)
  · cases same

theorem length_directives_le {limits : Limits} {query : Request.Query} {maximum : UInt64}
    (capped : limits.eagerLoads = some maximum)
    (accepted : checkEagerLoads limits query = .ok ()) :
    (directives query).length ≤ maximum.toNat := by
  unfold checkEagerLoads at accepted
  simp only [capped] at accepted
  by_contra exceeds
  rw [if_pos (Nat.lt_of_not_le exceeds)] at accepted
  cases accepted

/-- **How many loads a plan has.**  Each place that directives ask for is one load, and so is each
relation that is fetched for nested loads alone.  The cap bounds the first number, hence the whole
plan where every nested load is on a relation that is loaded explicitly; the second number it bounds
once more. -/
theorem loadCount_of_accepted {catalog : Catalog} {entity : String} {limits : Limits}
    {query : Request.Query} {plan : Plan}
    (accepted : compile catalog entity limits query = .ok plan) :
    plan.loadCount = (askedPaths query).dedup.length + (carriers query).dedup.length ∧
      ∀ maximum, limits.eagerLoads = some maximum →
        (askedPaths query).length ≤ maximum.toNat ∧
          (carriers query = [] → plan.loadCount ≤ maximum.toNat) ∧
            plan.loadCount ≤ 2 * maximum.toNat := by
  have same : List.Perm (plan.loads.flatMap EagerLoad.paths)
      ((askedPaths query).dedup ++ (carriers query).dedup.map ([·])) := by
    refine (List.perm_ext_iff_of_nodup (nodup_paths accepted)
      (nodup_askedPaths_carriers query)).2 fun path => ?_
    rw [mem_paths_of_accepted accepted, List.mem_append, List.mem_dedup]
    simp only [List.mem_map, List.mem_dedup]
  have count : plan.loadCount =
      (askedPaths query).dedup.length + (carriers query).dedup.length := by
    rw [loadCount, ← length_flatMap_paths, same.length_eq, List.length_append, List.length_map]
  refine ⟨count, fun maximum capped => ?_⟩
  obtain ⟨_, _, _, _, _, few, _⟩ := compile_eq_ok_iff.1 accepted
  have counted := length_directives_le capped few
  have asked := (List.dedup_sublist (askedPaths query)).length_le
  have carried := (List.dedup_sublist (carriers query)).length_le
  have carriersFew := length_carriers_le query
  rw [length_askedPaths] at asked ⊢
  refine ⟨counted, fun none => ?_, by omega⟩
  rw [count, none, List.dedup_nil, List.length_nil]
  omega

/-- Posts that are asked for twice, and comments on them: two places, and the cap is two. -/
theorem loadCount_of_accepted_posts :
    let catalog := Catalog.ofList
      [{ name := "User", table := "users", relations := [.oneToMany "posts" "Post" "user_id"] },
       { name := "Post", table := "posts",
         relations := [.oneToMany "comments" "Comment" "post_id"] },
       { name := "Comment", table := "comments" }]
    let query := (({} : Request.Query).withLoad { relation := "posts" }).withExistence
      { relation := "posts", load := some { relation := "comments" } }
    ∃ plan, compile catalog "User" { eagerLoads := some 2 } query = .ok plan ∧
      plan.loadCount = 2 := by
  intro catalog query
  have accepted : ∃ plan, compile catalog "User" { eagerLoads := some 2 } query = .ok plan :=
    ⟨_, rfl⟩
  obtain ⟨plan, accepted⟩ := accepted
  exact ⟨plan, accepted, (loadCount_of_accepted accepted).1⟩

/-- Users that have posts, with the comments on them: one load is asked for and two are made, with a
cap of one. -/
theorem loadCount_exceeds_cap :
    let catalog := Catalog.ofList
      [{ name := "User", table := "users", relations := [.oneToMany "posts" "Post" "user_id"] },
       { name := "Post", table := "posts",
         relations := [.oneToMany "comments" "Comment" "post_id"] },
       { name := "Comment", table := "comments" }]
    let limits : Limits := { eagerLoads := some 1 }
    let query := ({} : Request.Query).withExistence
      { relation := "posts", load := some { relation := "comments" } }
    ∃ plan, compile catalog "User" limits query = .ok plan ∧ plan.loadCount = 2 :=
  ⟨_, rfl, rfl⟩

end RequestQuery.Plan
