/-
# Sources of a statement

A statement reads or changes a table, and each subquery in its conditions reads another one.  Such a
source is scoped by a WHERE clause of its own, and where columns are qualified its columns are those
of its alias or its table.

`Statement.sources` finds all of them in the order of the text, and the clause of each does stand
there (`Statement.clause_of_source`).  Predicates bring no sources of their own.
-/
import RequestQuery.Catalog
import RequestQuery.Sql.Statement

namespace RequestQuery.Sql

set_option autoImplicit false

/-! ## Tables and their scopes -/

/-- A table in a statement, with the column that marks its records as deleted and the members of
the conjunction that scopes it. -/
structure Source where
  table : String
  mark : Column
  conditions : List Condition

mutual

/-- The tables of the subqueries in a condition, however deep they are. -/
def Condition.sources : Condition → List Source
  | .all members => Condition.sourcesOf members
  | .negation inner => inner.sources
  | .hasRecord _ table knownAs members =>
      ⟨table, .qualified knownAs Entity.deletedAt, members⟩ :: Condition.sourcesOf members
  | _ => []

def Condition.sourcesOf : List Condition → List Source
  | [] => []
  | c :: cs => c.sources ++ Condition.sourcesOf cs

end

/-- The tables that a statement reads or changes; a row that is added is not looked for in any. -/
def Statement.sources : Statement → List Source
  | .select _ table conditions _ _ | .lookup table conditions | .update table _ conditions
  | .delete table conditions =>
      ⟨table, .bare Entity.deletedAt, conditions⟩ :: Condition.sourcesOf conditions
  | .rankedLoad load =>
      ⟨load.table, .qualified load.table Entity.deletedAt, load.conditions⟩ ::
        Condition.sourcesOf load.conditions
  | .insert _ _ => []

def Statement.isDelete : Statement → Bool
  | .delete _ _ => true
  | _ => false

/-- The WHERE clause that scopes a source. -/
def Source.clause (source : Source) : List Token :=
  phrase (whereClause source.conditions)

/-- A source of the records of an entity leaves out the deleted ones if they are only marked. -/
structure Source.Guarded (entity : Entity) (source : Source) : Prop where
  table : source.table = entity.table
  guard : entity.softDeletes = true → .isNull source.mark ∈ source.conditions

/-! ## Conditions without subqueries -/

namespace Condition

theorem sourcesOf_append (cs ds : List Condition) :
    sourcesOf (cs ++ ds) = sourcesOf cs ++ sourcesOf ds := by
  induction cs with
  | nil => rfl
  | cons c cs ih => rw [List.cons_append, sourcesOf, ih, sourcesOf, List.append_assoc]

mutual

theorem sources_ofPredicate (source : Option String) :
    ∀ p : Predicate, (ofPredicate source p).sources = []
  | .none | .less _ _ | .greater _ _ | .isNull _ => rfl
  | .equals _ value => by cases value <;> rfl
  | .all members => sourcesOf_ofPredicates source members
  | .negation inner => sources_ofPredicate source inner

theorem sourcesOf_ofPredicates (source : Option String) :
    ∀ ps : List Predicate, sourcesOf (ofPredicates source ps) = []
  | [] => rfl
  | p :: ps => by
      rw [ofPredicates, sourcesOf, sources_ofPredicate source p,
        sourcesOf_ofPredicates source ps]
      rfl

end

theorem sourcesOf_notDeleted (softDeletes : Bool) (column : Column) :
    sourcesOf (notDeleted softDeletes column) = [] := by
  cases softDeletes <;> rfl

theorem mem_notDeleted {softDeletes : Bool} {column : Column} (marks : softDeletes = true) :
    .isNull column ∈ notDeleted softDeletes column := by
  rw [marks]
  exact List.mem_singleton_self _

end Condition

/-! ## The clause of a source in the text -/

theorem prefix_phrase (parts others : List (List Token)) :
    phrase parts <+: phrase (parts ++ others) := by
  induction parts with
  | nil => exact List.nil_prefix
  | cons part parts ih =>
      cases parts with
      | nil =>
          cases others with
          | nil => exact List.prefix_rfl
          | cons other others =>
              rw [phrase, List.intercalate_singleton]
              exact ⟨_, by
                rw [List.singleton_append, phrase, List.intercalate_cons_cons, List.append_assoc]⟩
      | cons next parts =>
          rw [List.cons_append, List.cons_append] at *
          simp only [phrase, List.intercalate_cons_cons]
          exact (List.prefix_append_right_inj _).2 ih

theorem suffix_phrase (parts others : List (List Token)) :
    phrase others <:+ phrase (parts ++ others) := by
  induction parts with
  | nil => exact List.suffix_rfl
  | cons part parts ih =>
      rw [List.cons_append]
      cases rest : parts ++ others with
      | nil =>
          rw [(List.append_eq_nil_iff.1 rest).2]
          exact List.nil_suffix
      | cons next more =>
          rw [rest] at ih
          exact ih.trans ⟨_, (List.intercalate_cons_cons).symm⟩

theorem infix_phrase {middle parts : List (List Token)} (h : middle <:+: parts) :
    phrase middle <:+: phrase parts := by
  obtain ⟨before, after, rfl⟩ := h
  exact (suffix_phrase before middle).isInfix.trans (prefix_phrase _ after).isInfix

theorem infix_of_part {part : List Token} {parts : List (List Token)} (member : part ∈ parts) :
    part <:+: phrase parts := by
  obtain ⟨before, after, rfl⟩ := List.append_of_mem member
  have alone : phrase [part] = part := List.intercalate_singleton
  have one := infix_phrase (List.infix_append before [part] after)
  rw [alone, List.append_assoc] at one
  exact one

theorem infix_parenthesized (ts : List Token) : ts <:+: parenthesized ts :=
  ⟨[.word .opening], [.word .closing], rfl⟩

namespace Condition

/-- The conjunction of a WHERE clause is part of the clause. -/
theorem conjunction_infix_clause (conditions : List Condition) :
    conjunction conditions <:+: phrase (whereClause conditions) := by
  cases conditions with
  | nil => exact List.nil_infix
  | cons c cs => exact infix_of_part (List.mem_cons_of_mem _ (List.mem_singleton_self _))

/-- The clause of an existence condition stands between the alias and the end of the subquery. -/
theorem clause_infix_hasRecord (inConjunction negated : Bool) (table knownAs : String)
    (members : List Condition) :
    phrase (whereClause members) <:+:
      tokensWithin inConjunction (.hasRecord negated table knownAs members) := by
  cases members with
  | nil => exact List.nil_infix
  | cons c cs =>
      have subquery : phrase (whereClause (c :: cs)) <:+:
          phrase [words [.SELECT, .one, .FROM], path table, words [.AS], path knownAs,
            words [.WHERE], conjunction (c :: cs)] :=
        infix_phrase
          ⟨[words [.SELECT, .one, .FROM], path table, words [.AS], path knownAs], [], rfl⟩
      exact (subquery.trans (infix_parenthesized _)).trans
        (infix_of_part (List.mem_cons_of_mem _ (List.mem_singleton_self _)))

theorem conjunction_infix_hasRecord (inConjunction negated : Bool) (table knownAs : String)
    (members : List Condition) :
    conjunction members <:+:
      tokensWithin inConjunction (.hasRecord negated table knownAs members) :=
  (conjunction_infix_clause members).trans (clause_infix_hasRecord ..)

mutual

theorem clause_infix_tokensWithin {source : Source} (inConjunction : Bool) :
    ∀ c : Condition, source ∈ c.sources → source.clause <:+: c.tokensWithin inConjunction
  | .all members, member => by
      have inside := clause_infix_conjunction members member
      cases inConjunction with
      | false => exact inside
      | true => exact inside.trans (infix_parenthesized _)
  | .negation inner, member => by
      have inside := clause_infix_tokensWithin false inner member
      exact (inside.trans (infix_parenthesized _)).trans
        (infix_of_part (List.mem_cons_of_mem _ (List.mem_singleton_self _)))
  | .hasRecord negated table knownAs members, member => by
      rcases List.mem_cons.1 member with rfl | deeper
      · exact clause_infix_hasRecord ..
      · exact (clause_infix_conjunction members deeper).trans (conjunction_infix_hasRecord ..)

theorem clause_infix_conjunction {source : Source} :
    ∀ cs : List Condition, source ∈ sourcesOf cs → source.clause <:+: conjunction cs
  | [c], member => by
      rw [sourcesOf, sourcesOf, List.append_nil] at member
      exact clause_infix_tokensWithin true c member
  | c :: d :: cs, member => by
      rcases List.mem_append.1 member with first | later
      · exact (clause_infix_tokensWithin true c first).trans (infix_of_part List.mem_cons_self)
      · exact (clause_infix_conjunction (d :: cs) later).trans
          (infix_of_part (by simp))

end

end Condition

/-- A table that is scoped by some conditions, and the subqueries in these. -/
theorem clause_of_scope {table : String} {mark : Column} {conditions : List Condition}
    {source : Source}
    (member : source ∈ ⟨table, mark, conditions⟩ :: Condition.sourcesOf conditions) :
    source.clause <:+: phrase (whereClause conditions) := by
  rcases List.mem_cons.1 member with rfl | deeper
  · exact List.infix_rfl
  · exact (Condition.clause_infix_conjunction conditions deeper).trans
      (Condition.conjunction_infix_clause conditions)

theorem RankedLoad.rankedTokens_infix (load : RankedLoad) : load.rankedTokens <:+: load.tokens := by
  have whole : parenthesized load.rankedTokens <:+: load.tokens := by
    rw [RankedLoad.tokens, List.append_assoc]
    exact infix_of_part (List.mem_append_left _ (by simp))
  exact (infix_parenthesized _).trans whole

/-- The conditions of a statement; a row that is added has none. -/
def Statement.conditions : Statement → List Condition
  | .select _ _ conditions _ _ | .lookup _ conditions | .update _ _ conditions
  | .delete _ conditions => conditions
  | .rankedLoad load => load.conditions
  | .insert _ _ => []

theorem Statement.clause_infix_tokens (statement : Statement) :
    phrase (whereClause statement.conditions) <:+: statement.tokens := by
  cases statement with
  | select projection table conditions groupBy orderBy =>
      refine infix_phrase ?_
      apply List.infix_append_of_infix_left
      apply List.infix_append_of_infix_left
      exact List.infix_append_right
  | lookup table conditions =>
      exact infix_phrase (List.infix_append_of_infix_left List.infix_append_right)
  | update table entries conditions => exact infix_phrase List.infix_append_right
  | delete table conditions => exact infix_phrase List.infix_append_right
  | rankedLoad load =>
      have ranked : phrase (whereClause load.conditions) <:+: load.rankedTokens :=
        infix_phrase List.infix_append_right
      exact ranked.trans load.rankedTokens_infix
  | insert table entries => exact List.nil_infix

/-- **The clause of every source stands in the statement.** -/
theorem Statement.clause_of_source {statement : Statement} {source : Source}
    (member : source ∈ statement.sources) : source.clause <:+: statement.tokens := by
  refine List.IsInfix.trans ?_ statement.clause_infix_tokens
  cases statement with
  | insert table entries => cases member
  | _ => exact clause_of_scope member

end RequestQuery.Sql
