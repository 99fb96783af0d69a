/-
# What the qualifiers of a plan mean

In an existence clause the columns of the related table are qualified with its alias, which always
means the table of the clause.  The local key of the parent is qualified with the name of the root
table.  It means that table unless the name has dots, when nothing is known by it, or is itself one
of the aliases `r1`, `r2` and so on, when the clause captures it (`Existence.level?_parent`).

In the statement of a join all columns are those of its table, and their qualifiers mean that table
unless its name has dots (`Join.level?_own`).
-/
import RequestQuery.Proofs.Plan.RootStatement
import RequestQuery.Proofs.Sql.Scoping

namespace RequestQuery.Plan

set_option autoImplicit false

open Sql

variable {same : String → String → Bool}

theorem references_notDeleted (scopes : List FromItem) (softDeletes : Bool) (source : String) :
    Condition.referencesOf scopes
        (Condition.notDeleted softDeletes (.qualified source Entity.deletedAt)) =
      (if softDeletes then [Entity.deletedAt] else []).map fun column =>
        ⟨[source], some column, scopes⟩ := by
  cases softDeletes <;> rfl

theorem references_conjuncts (scopes : List FromItem) (source : String) (p : Predicate) :
    Condition.referencesOf scopes (Condition.conjuncts (some source) p) =
      p.columns.map fun column => ⟨[source], some column, scopes⟩ := by
  rw [Condition.conjuncts, Condition.references_ofPredicates, Predicate.columnsOf_conjuncts]
  exact List.map_eq_flatMap.symm

/-! ## Existence clauses -/

namespace Existence

variable (existence : Existence) (root : String) (index : Nat)

/-- What is in scope in the clause at an index: its own table and, around it, that of the root. -/
def scopes : List FromItem :=
  [.aliased existence.table ("r" ++ toString (index + 1)), .plain root]

/-- A column of the related table. -/
def own (column : String) : Reference :=
  ⟨["r" ++ toString (index + 1)], some column, existence.scopes root index⟩

/-- The local key of the parent. -/
def parent : Reference :=
  ⟨[root], some existence.localKey, existence.scopes root index⟩

/-- The columns that restrict the related record beyond its foreign key. -/
def restricting : List String :=
  (if existence.softDeletes then [Entity.deletedAt] else []) ++ existence.comparison.columns

def references : List Reference :=
  existence.own root index existence.foreignKey :: existence.parent root index ::
    existence.restricting.map (existence.own root index)

theorem references_condition :
    (existence.condition root (existenceAlias index)).references [.plain root] =
      existence.references root index := by
  simp only [condition, Condition.references, Condition.referencesOf,
    Condition.referencesOf_append, references_notDeleted, references_conjuncts, references,
    restricting, List.map_append]
  rfl

variable {existence root index}

theorem level?_own (refl : ∀ s, same s s = true) (column : String) :
    (existence.own root index column).level? same = some 0 := by
  have known : samePath same
      (FromItem.aliased existence.table ("r" ++ toString (index + 1))).knownAs
      ["r" ++ toString (index + 1)] = true := by
    rw [FromItem.aliased, pathSegments_alias]
    exact samePath_self refl _
  rw [own, scopes, Reference.level?_cons, if_pos known]

/-- **What the local key of the parent means.**  The clause captures it if its alias is the name of
the root table; otherwise it means that table unless the name has dots. -/
theorem level?_parent (refl : ∀ s, same s s = true) :
    (existence.parent root index).level? same =
      if same ("r" ++ toString (index + 1)) root then some 0
      else if '.' ∈ root.toList then none else some 1 := by
  have inner : samePath same
      (FromItem.aliased existence.table ("r" ++ toString (index + 1))).knownAs [root] =
        same ("r" ++ toString (index + 1)) root := by
    rw [FromItem.aliased, pathSegments_alias, samePath, samePath, Bool.and_true]
  rw [parent, scopes, Reference.level?_cons, inner, Reference.level?_plain refl]
  by_cases dotted : '.' ∈ root.toList
  · rw [if_pos dotted, if_pos dotted]
    rfl
  · rw [if_neg dotted, if_neg dotted]
    rfl

end Existence

theorem references_statement (plan : Plan) :
    plan.statement.references =
      plan.existences.zipIdx.flatMap fun item => item.1.references plan.table item.2 := by
  have filter : Condition.referencesOf [.plain plan.table]
      (Condition.conjuncts none plan.filter) = [] := by
    rw [Condition.conjuncts, Condition.references_ofPredicates]
    exact List.flatMap_eq_nil_iff.2 fun _ _ => rfl
  rw [statement, Statement.references, Condition.referencesOf_append, filter, List.nil_append,
    Condition.referencesOf_eq_flatMap, List.flatMap_map]
  exact List.flatMap_congr fun item _ => Existence.references_condition ..

/-! ## Joins -/

namespace Join

variable (join : Join)

/-- All columns of the table of a join, as its statement writes them. -/
def star : Reference :=
  ⟨pathSegments join.table, none, [.plain join.table]⟩

/-- A column of the table of a join, as its statement writes it. -/
def own (column : String) : Reference :=
  ⟨[join.table], some column, [.plain join.table]⟩

/-- The columns that are partitioned by, ordered by and compared, in this order. -/
def columns : List String :=
  join.foreignKey :: join.order.column :: join.foreignKey ::
    ((if join.softDeletes then [Entity.deletedAt] else []) ++ join.constraint.columns)

theorem references_statement (keys : List Parameter) :
    (join.statement keys).references = join.star :: join.columns.map join.own := by
  simp only [statement, Statement.references, RankedLoad.references, Column.references,
    Condition.references, Condition.referencesOf, Condition.referencesOf_append,
    references_notDeleted, references_conjuncts, columns, List.map_cons, List.map_append]
  rfl

variable {join}

theorem level?_star (refl : ∀ s, same s s = true) : join.star.level? same = some 0 := by
  have known : samePath same (FromItem.plain join.table).knownAs (pathSegments join.table) = true :=
    samePath_self refl _
  rw [star, Reference.level?_cons, if_pos known]

theorem level?_own (refl : ∀ s, same s s = true) (column : String) :
    (join.own column).level? same = if '.' ∈ join.table.toList then none else some 0 :=
  Reference.level?_plain refl ..

end Join

/-! ## The statements of a plan -/

/-- **What the qualifiers in the statements of a plan mean.**  In an existence clause of the root
statement the columns of the related table mean the table of the clause.  The local key of the
parent means the root table exactly if the name of that table has no dots and is not the alias of
the clause.  In the statement of a join every qualifier means its table exactly if the name of that
table has no dots; the one of all columns does so in any case. -/
theorem qualifiers_resolve (refl : ∀ s, same s s = true) {catalog : Catalog} {entity : String}
    {limits : Limits} {query : Request.Query} {plan : Plan}
    (accepted : compile catalog entity limits query = .ok plan) :
    ∃ root, catalog.entity? entity = some root ∧
      (plan.statement.references =
          plan.existences.zipIdx.flatMap fun item => item.1.references root.table item.2) ∧
        (∀ item ∈ plan.existences.zipIdx,
          (∀ column, (item.1.own root.table item.2 column).level? same = some 0) ∧
            (item.1.parent root.table item.2).level? same =
              if same ("r" ++ toString (item.2 + 1)) root.table then some 0
              else if '.' ∈ root.table.toList then none else some 1) ∧
          ∀ load ∈ plan.loads, ∀ join ∈ load.join :: load.nested, ∀ keys,
            (join.statement keys).references = join.star :: join.columns.map join.own ∧
              join.star.level? same = some 0 ∧
                ∀ column, (join.own column).level? same =
                  if '.' ∈ join.table.toList then none else some 0 := by
  obtain ⟨root, explicit, resolved, found, _, _, _, _, rfl⟩ := compile_eq_ok_iff.1 accepted
  refine ⟨root, found, references_statement _, ?_, ?_⟩
  · intro item _
    exact ⟨Existence.level?_own refl, Existence.level?_parent refl⟩
  · intro load _ join _ keys
    exact ⟨join.references_statement keys, Join.level?_star refl, Join.level?_own refl⟩

/-- Users that have a post, loaded with their posts: every qualifier means its table. -/
theorem qualifiers_resolve_posts :
    let catalog := Catalog.ofList
      [{ name := "User", table := "users", relations := [.oneToMany "posts" "Post" "user_id"] },
       { name := "Post", table := "posts", softDeletes := true }]
    let query := (({} : Request.Query).withExistence { relation := "posts" }).withLoad
      { relation := "posts" }
    ∃ plan, compile catalog "User" {} query = .ok plan ∧
      plan.statement.references.map (·.level? (· == ·)) = [some 0, some 1, some 0] ∧
        ∀ load ∈ plan.loads, ∀ keys, ∀ reference ∈ (load.join.statement keys).references,
          reference.level? (· == ·) = some 0 := by
  intro catalog query
  have accepted : ∃ plan, compile catalog "User" {} query = .ok plan ∧
      plan.statement.references.map (·.level? (· == ·)) = [some 0, some 1, some 0] ∧
        plan.loads.map (·.join.table) = ["posts"] := ⟨_, rfl, by decide +kernel⟩
  obtain ⟨plan, accepted, levels, tables⟩ := accepted
  obtain ⟨root, _, _, _, joins⟩ := qualifiers_resolve beq_self_eq_true accepted
  refine ⟨plan, accepted, levels, fun load member keys reference refers => ?_⟩
  have table : load.join.table = "posts" :=
    List.mem_singleton.1 (tables ▸ List.mem_map_of_mem member)
  obtain ⟨references, star, own⟩ := joins load member load.join List.mem_cons_self keys
  rw [references, List.mem_cons, List.mem_map] at refers
  rcases refers with rfl | ⟨column, _, rfl⟩
  · exact star
  · rw [own, table, if_neg (by decide)]

/-- Users in a table with a dotted name lose the qualifiers that are to mean it, and so do their
posts; in a table that is called like an alias they lose their local key to the clause. -/
theorem qualifiers_lost :
    let catalog users posts := Catalog.ofList
      [{ name := "User", table := users, relations := [.oneToMany "posts" "Post" "user_id"] },
       { name := "Post", table := posts }]
    let query := (({} : Request.Query).withExistence { relation := "posts" }).withLoad
      { relation := "posts" }
    (∃ plan, compile (catalog "app.users" "app.posts") "User" {} query = .ok plan ∧
      plan.statement.references.map (·.level? (· == ·)) = [some 0, none] ∧
        plan.loads.map (fun load =>
          (load.join.statement []).references.map (·.level? (· == ·))) =
            [[some 0, none, none, none]]) ∧
      ∃ plan, compile (catalog "r1" "posts") "User" {} query = .ok plan ∧
        plan.statement.references.map (·.level? (· == ·)) = [some 0, some 0] := by
  intro catalog query
  exact ⟨⟨_, rfl, by decide +kernel⟩, ⟨_, rfl, by decide +kernel⟩⟩

end RequestQuery.Plan
