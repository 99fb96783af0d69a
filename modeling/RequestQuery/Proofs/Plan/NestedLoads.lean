/-
# Loads that existence directives bring along

Loads of one relation are merged one after the other.  The first of them decides how the relation is
fetched, and whether it is fetched at all; the later ones only add the joins that are nested in them
(`get?_foldl_attach`).

So the load nested in an existence directive is always found in the plan, below the relation of the
directive (`nested_kept`).  It is not always run: a negated directive brings a load that is known to
be empty, and if that one comes first, a positive directive on the same relation does not change it.
-/
import RequestQuery.Proofs.Plan.Resolution

namespace RequestQuery.Plan

set_option autoImplicit false

/-! ## Merging loads of one relation -/

/-- The first load of a relation with the joins nested in the later ones. -/
def gathered (first : EagerLoad) (later : List EagerLoad) : EagerLoad :=
  { first with
    nested := later.foldl (fun nested load => addNested nested load.nested) first.nested }

theorem mem_names_addNested {present added : List Join} {name : String} :
    name ∈ (addNested present added).map (·.name) ↔
      name ∈ present.map (·.name) ∨ name ∈ added.map (·.name) := by
  rw [addNested, List.map_append, List.mem_append]
  constructor
  · exact Or.imp_right fun kept => (List.filter_sublist.map _).subset kept
  · rintro (taken | wanted)
    · exact .inl taken
    · by_cases taken : name ∈ present.map (·.name)
      · exact .inl taken
      · obtain ⟨join, member, rfl⟩ := List.mem_map.1 wanted
        refine .inr (List.mem_map_of_mem (List.mem_filter.2 ⟨member, ?_⟩))
        simp only [List.mem_map, not_exists, not_and] at taken
        simpa using taken

theorem mem_nested_gathered {first : EagerLoad} {later : List EagerLoad} {name : String} :
    name ∈ (gathered first later).nested.map (·.name) ↔
      ∃ load ∈ first :: later, name ∈ load.nested.map (·.name) := by
  suffices ∀ nested : List Join,
      name ∈ (later.foldl (fun nested load => addNested nested load.nested) nested).map (·.name) ↔
        name ∈ nested.map (·.name) ∨ ∃ load ∈ later, name ∈ load.nested.map (·.name) by
    rw [List.exists_mem_cons_iff]
    exact this first.nested
  induction later with
  | nil => simp
  | cons load later ih =>
      intro nested
      rw [List.foldl_cons, ih, mem_names_addNested, List.exists_mem_cons_iff, or_assoc]

theorem get?_attach (loads : Ordered EagerLoad) (load : EagerLoad) (name : String) :
    (attach loads load).get? name =
      if load.join.name = name then
        match loads.get? name with
        | none => some load
        | some present => some (gathered present [load])
      else loads.get? name := by
  unfold attach
  split
  next missing =>
    rw [Ordered.get?_put]
    split
    next same => rw [← same, missing]
    next => rfl
  next present found =>
    rw [Ordered.get?_put]
    split
    next same =>
      rw [← same, found]
      rfl
    next => rfl

/-- **What a relation is loaded as.**  Of the loads that are taken in one after the other, those of
a relation are gathered into the first of them. -/
theorem get?_foldl_attach (items : List EagerLoad) (start : Ordered EagerLoad) (name : String) :
    (items.foldl attach start).get? name =
      match (start.get? name).toList ++ items.filter (·.join.name = name) with
      | [] => none
      | first :: later => some (gathered first later) := by
  induction items generalizing start with
  | nil => cases found : start.get? name <;> simp [found, gathered]
  | cons load items ih =>
      rw [List.foldl_cons, ih, get?_attach]
      by_cases same : load.join.name = name
      · rw [if_pos same, List.filter_cons_of_pos (by simpa using same)]
        cases start.get? name <;> rfl
      · rw [if_neg same, List.filter_cons_of_neg (by simpa using same)]

/-! ## Where the loads come from -/

section Sources

variable {catalog : Catalog} {root : Entity}

theorem name_of_joinOf {parent : Entity} {load : Request.Load} {join : Join}
    (accepted : joinOf catalog parent load = .ok join) : join.name = load.relation := by
  obtain ⟨relation, target, order, related, _, rfl⟩ := joinOf_eq_ok_iff.1 accepted
  exact Catalog.name_of_related related

/-- The explicit loads are those of the relations that are asked for, and each is run. -/
theorem of_explicitLoads {asked : List Request.Load} {loads : Ordered EagerLoad}
    (accepted : explicitLoads catalog root asked = .ok loads) :
    (∀ name, name ∈ loads.names ↔ name ∈ asked.map (·.relation)) ∧
      ∀ entry ∈ loads, entry.2.isEmpty = false := by
  obtain ⟨joins, joined, made⟩ := Outcome.bind_eq_ok_iff.1 accepted
  rw [← Outcome.pure_eq_ok_iff.1 made]
  have names : joins.map (·.name) = asked.map (·.relation) := by
    have each := Outcome.mapM_eq_ok_iff.1 joined
    clear accepted joined made
    induction each with
    | nil => rfl
    | cons first _ ih => rw [List.map_cons, List.map_cons, ih, name_of_joinOf first]
  constructor
  · intro name
    rw [Ordered.mem_names_ofList, ← names, Ordered.names, List.map_map]
    rfl
  · intro entry member
    obtain ⟨join, _, rfl⟩ := List.mem_map.1 (Ordered.mem_ofList member)
    rfl

/-- A directive brings a load along exactly if another one is nested in it. -/
theorem load_of_resolveExistence {directive : Request.Existence} {item : ResolvedExistence}
    (accepted : resolveExistence catalog root directive = .ok item) :
    Option.Rel
      (fun nested load => load.join.name = directive.relation ∧
        load.isEmpty = directive.negated ∧ load.nested.map (·.name) = [nested.relation])
      directive.load item.load := by
  obtain ⟨relation, target, nested, related, joined, rfl⟩ :=
    resolveExistence_eq_ok_iff.1 accepted
  rw [Outcome.optionMapM_eq_ok_iff] at joined
  generalize directive.load = asked at joined ⊢
  cases joined with
  | none => exact .none
  | some join =>
      refine .some ⟨Catalog.name_of_related related, rfl, ?_⟩
      exact congrArg (fun name => [name]) (name_of_joinOf join)

/-- The first load that is brought along for a relation is that of the first directive on it with a
nested load. -/
theorem find?_brought {directives : List Request.Existence} {items : List ResolvedExistence}
    (resolved : List.Forall₂
      (fun directive item => resolveExistence catalog root directive = .ok item)
      directives items) (name : String) :
    (((items.filterMap (·.load)).find? (·.join.name = name)).map (·.isEmpty)) =
      (directives.find? fun directive =>
        directive.relation = name ∧ directive.load.isSome).map (·.negated) := by
  induction resolved with
  | nil => rfl
  | @cons directive item _ _ accepted _ ih =>
      have brought := load_of_resolveExistence accepted
      rw [List.filterMap_cons]
      generalize given : item.load = load at brought
      generalize asked : directive.load = nested at brought
      cases brought with
      | none =>
          rw [List.find?_cons_of_neg (by simp [asked])]
          exact ih
      | some facts =>
          obtain ⟨named, empty, _⟩ := facts
          by_cases same : directive.relation = name
          · rw [List.find?_cons_of_pos (by simp [named, same]),
              List.find?_cons_of_pos (by simp [asked, same])]
            exact congrArg some empty
          · rw [List.find?_cons_of_neg (by simp [named, same]),
              List.find?_cons_of_neg (by simp [same])]
            exact ih

theorem exists_brought {directives : List Request.Existence} {items : List ResolvedExistence}
    (resolved : List.Forall₂
      (fun directive item => resolveExistence catalog root directive = .ok item)
      directives items) {directive : Request.Existence} (asked : directive ∈ directives)
    {nested : Request.Load} (brings : directive.load = some nested) :
    ∃ load ∈ items.filterMap (·.load),
      load.join.name = directive.relation ∧ nested.relation ∈ load.nested.map (·.name) := by
  induction resolved with
  | nil => cases asked
  | @cons other item _ _ accepted _ ih =>
      rcases List.mem_cons.1 asked with rfl | asked
      · have brought := load_of_resolveExistence accepted
        generalize given : item.load = load at brought
        rw [brings] at brought
        cases brought with
        | some facts =>
            obtain ⟨named, _, inner⟩ := facts
            refine ⟨_, List.mem_filterMap.2 ⟨item, List.mem_cons_self, given⟩, named, ?_⟩
            rw [inner]
            exact List.mem_singleton_self _
      · obtain ⟨load, member, facts⟩ := ih asked
        obtain ⟨source, later, given⟩ := List.mem_filterMap.1 member
        exact ⟨load, List.mem_filterMap.2 ⟨source, List.mem_cons_of_mem _ later, given⟩, facts⟩

end Sources

/-! ## Nested loads of a plan -/

/-- The first existence directive on a relation that has a nested load. -/
def firstNesting (query : Request.Query) (relation : String) : Option Request.Existence :=
  query.existences.find? fun directive =>
    directive.relation = relation ∧ directive.load.isSome

/-- **The load nested in an existence directive is in the plan**, below the relation of the
directive.  It is never run only if nothing loads the relation explicitly and the first directive to
bring it along is a negated one. -/
theorem nested_kept {catalog : Catalog} {entity : String} {limits : Limits}
    {query : Request.Query} {plan : Plan}
    (accepted : compile catalog entity limits query = .ok plan) {directive : Request.Existence}
    (asked : directive ∈ query.existences) {nested : Request.Load}
    (brings : directive.load = some nested) :
    ∃ load ∈ plan.loads, load.join.name = directive.relation ∧
      nested.relation ∈ load.nested.map (·.name) ∧
        (load.isEmpty = true ↔
          directive.relation ∉ query.loads.map (·.relation) ∧
            (firstNesting query directive.relation).map (·.negated) = some true) := by
  obtain ⟨root, explicit, resolved, _, _, _, loaded, directives, rfl⟩ :=
    compile_eq_ok_iff.1 accepted
  obtain ⟨names, executed⟩ := of_explicitLoads loaded
  have merged := (LoadsResolved.explicitLoads loaded).mergedLoads directives
  have flag := find?_brought directives directive.relation
  obtain ⟨brought, present, named, inner⟩ := exists_brought directives asked brings
  have found := get?_foldl_attach (resolved.filterMap (·.load)) explicit directive.relation
  have candidate : brought ∈ (explicit.get? directive.relation).toList ++
      (resolved.filterMap (·.load)).filter (·.join.name = directive.relation) :=
    List.mem_append_right _ (List.mem_filter.2 ⟨present, by simpa using named⟩)
  cases candidates : (explicit.get? directive.relation).toList ++
      (resolved.filterMap (·.load)).filter (·.join.name = directive.relation) with
  | nil =>
      rw [candidates] at candidate
      cases candidate
  | cons first later =>
      rw [candidates] at found candidate
      have member := Ordered.mem_of_get? found
      refine ⟨gathered first later, List.mem_map_of_mem member, merged.named _ member,
        mem_nested_gathered.2 ⟨brought, candidate, inner⟩, ?_⟩
      change first.isEmpty = true ↔ _
      rw [firstNesting, ← flag, ← names, ← Ordered.get?_eq_none_iff]
      cases own : explicit.get? directive.relation with
      | some load =>
          obtain ⟨rfl, _⟩ := List.cons.inj (own ▸ candidates)
          rw [executed _ (Ordered.mem_of_get? own)]
          simp
      | none =>
          have front := congrArg List.head? candidates
          rw [own, Option.toList_none, List.nil_append, List.head?_filter] at front
          rw [front]
          simp

/-- Users with posts, each of them loaded with its comments. -/
theorem nested_kept_posts :
    let catalog := Catalog.ofList
      [{ name := "User", table := "users", relations := [.oneToMany "posts" "Post" "user_id"] },
       { name := "Post", table := "posts",
         relations := [.oneToMany "comments" "Comment" "post_id"] },
       { name := "Comment", table := "comments" }]
    let directive : Request.Existence :=
      { relation := "posts", load := some { relation := "comments" } }
    let query := ({} : Request.Query).withExistence directive
    ∃ plan, compile catalog "User" {} query = .ok plan ∧ directive ∈ query.existences ∧
      ∃ load ∈ plan.loads, load.join.name = "posts" ∧ "comments" ∈ load.nested.map (·.name) ∧
        load.isEmpty = false := by
  intro catalog directive query
  have accepted : ∃ plan, compile catalog "User" {} query = .ok plan := ⟨_, rfl⟩
  have asked : directive ∈ query.existences := List.mem_singleton_self directive
  obtain ⟨plan, accepted⟩ := accepted
  obtain ⟨load, member, named, inner, empty⟩ := nested_kept accepted asked rfl
  refine ⟨plan, accepted, asked, load, member, named, inner, Bool.eq_false_iff.2 fun flag => ?_⟩
  have negated := (empty.1 flag).2
  change some false = some true at negated
  cases negated

/-- Users that have posts, but none after the hundredth: the posts are not loaded, although the
comments on them are asked for. -/
theorem nested_not_run_after_negated :
    let catalog := Catalog.ofList
      [{ name := "User", table := "users", relations := [.oneToMany "posts" "Post" "user_id"] },
       { name := "Post", table := "posts",
         relations := [.oneToMany "comments" "Comment" "post_id"] },
       { name := "Comment", table := "comments" }]
    let positive : Request.Existence :=
      { relation := "posts", load := some { relation := "comments" } }
    let query := (({} : Request.Query).withExistence
      { positive with operator := .greater, value := some (.int 100), negated := true }
      ).withExistence positive
    ∃ plan, compile catalog "User" {} query = .ok plan ∧ positive ∈ query.existences ∧
      positive.negated = false ∧
        ¬∃ load ∈ plan.loads, load.join.name = "posts" ∧ load.isEmpty = false ∧
          "comments" ∈ load.nested.map (·.name) := by
  intro catalog positive query
  refine ⟨_, rfl, List.mem_cons_of_mem _ (List.mem_singleton_self positive), rfl, ?_⟩
  decide +kernel

end RequestQuery.Plan
