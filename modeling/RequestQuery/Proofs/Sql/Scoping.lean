/-
# Which source a qualified column means

A FROM clause introduces a source under its alias or, where it has none, under the name of its table
as it is written there: a name with dots has several segments.  A subquery also sees the sources
around it, and a qualifier means the innermost source that is known by it.  `Reference.level?` counts
how far out that is.

A qualifier before a column is one segment, whatever it contains (`Column.tokens`).  So it can mean a
table only if the name of that table has no dots (`samePath_pathSegments_iff`).  Every reference does
stand in the text of its statement (`Statement.infix_of_reference`).

Stores differ in which identifiers they take for the same one, so that is a parameter, `same`.
-/
import RequestQuery.Proofs.Sql.Sources

namespace RequestQuery

set_option autoImplicit false

mutual

/-- The columns that a predicate speaks about, in their order. -/
def Predicate.columns : Predicate → List String
  | .none => []
  | .equals column _ | .less column _ | .greater column _ | .isNull column => [column]
  | .all members => Predicate.columnsOf members
  | .negation inner => inner.columns

def Predicate.columnsOf : List Predicate → List String
  | [] => []
  | p :: ps => p.columns ++ Predicate.columnsOf ps

end

theorem Predicate.columnsOf_conjuncts (p : Predicate) : columnsOf p.conjuncts = p.columns := by
  cases p with
  | none | all => rfl
  | _ => exact List.append_nil _

namespace Sql

/-! ## Sources and references -/

/-- A source as a FROM clause introduces it, with the segments of the name it is known by. -/
structure FromItem where
  table : String
  knownAs : List String
  deriving DecidableEq, Repr

/-- A table without an alias. -/
def FromItem.plain (table : String) : FromItem :=
  ⟨table, pathSegments table⟩

def FromItem.aliased (table knownAs : String) : FromItem :=
  ⟨table, pathSegments knownAs⟩

/-- A qualified column where it stands. -/
structure Reference where
  /-- The segments of the qualifier. -/
  qualifier : List String
  /-- All columns where none is named. -/
  column : Option String
  /-- The sources in scope, the innermost first. -/
  scopes : List FromItem
  deriving DecidableEq, Repr

def Column.references (scopes : List FromItem) : Column → List Reference
  | .bare _ => []
  | .qualified source name => [⟨[source], some name, scopes⟩]

mutual

/-- The qualified columns in a condition, however deep they are. -/
def Condition.references (scopes : List FromItem) : Condition → List Reference
  | .always => []
  | .isNull column | .compares column _ _ | .among column _ => column.references scopes
  | .sameAs left right => left.references scopes ++ right.references scopes
  | .all members => Condition.referencesOf scopes members
  | .negation inner => inner.references scopes
  | .hasRecord _ table knownAs members =>
      Condition.referencesOf (.aliased table knownAs :: scopes) members

def Condition.referencesOf (scopes : List FromItem) : List Condition → List Reference
  | [] => []
  | c :: cs => c.references scopes ++ Condition.referencesOf scopes cs

end

/-- The qualified columns around the ranked records, all of them columns of the one table. -/
def RankedLoad.references (load : RankedLoad) : List Reference :=
  let scopes := [FromItem.plain load.table]
  ⟨pathSegments load.table, none, scopes⟩ ::
    (load.partition.references scopes ++ load.order.references scopes ++
      Condition.referencesOf scopes load.conditions)

/-- The qualified columns of a statement, in the order of the text. -/
def Statement.references : Statement → List Reference
  | .select _ table conditions _ _ | .lookup table conditions | .update table _ conditions
  | .delete table conditions => Condition.referencesOf [.plain table] conditions
  | .rankedLoad load => load.references
  | .insert _ _ => []

/-! ## Resolving -/

section Resolving

variable (same : String → String → Bool)

/-- Names that a store takes for the same, segment by segment. -/
def samePath : List String → List String → Bool
  | [], [] => true
  | s :: ss, t :: ts => same s t && samePath ss ts
  | _, _ => false

/-- How far out the source that a reference means is; the innermost one is at level 0. -/
def Reference.level? (reference : Reference) : Option Nat :=
  reference.scopes.findIdx? fun item => samePath same item.knownAs reference.qualifier

variable {same}

theorem samePath_singleton_iff {path : List String} {t : String} :
    samePath same path [t] = true ↔ ∃ s, path = [s] ∧ same s t = true := by
  match path with
  | [] => simp [samePath]
  | [s] => simp [samePath]
  | s :: s' :: ss => simp [samePath]

theorem samePath_self (refl : ∀ s, same s s = true) (path : List String) :
    samePath same path path = true := by
  induction path with
  | nil => rfl
  | cons s path ih => rw [samePath, refl, ih, Bool.and_self]

/-- One segment means a table exactly if its name has no dots. -/
theorem samePath_pathSegments_iff (refl : ∀ s, same s s = true) {name : String} :
    samePath same (pathSegments name) [name] = true ↔ '.' ∉ name.toList := by
  rw [samePath_singleton_iff]
  constructor
  · rintro ⟨s, whole, _⟩
    exact (pathSegments_eq_singleton_iff.1 whole).1
  · intro noDot
    exact ⟨name, pathSegments_eq_singleton_iff.2 ⟨noDot, rfl⟩, refl name⟩

/-- A reference means the innermost source if that is known by its qualifier, and otherwise what it
means further out. -/
theorem Reference.level?_cons (qualifier : List String) (column : Option String)
    (item : FromItem) (outer : List FromItem) :
    Reference.level? same ⟨qualifier, column, item :: outer⟩ =
      if samePath same item.knownAs qualifier then some 0
      else (Reference.level? same ⟨qualifier, column, outer⟩).map (· + 1) :=
  List.findIdx?_cons ..

/-- One segment means a table that is alone in scope exactly if its name has no dots. -/
theorem Reference.level?_plain (refl : ∀ s, same s s = true) (table : String)
    (column : Option String) :
    Reference.level? same ⟨[table], column, [.plain table]⟩ =
      if '.' ∈ table.toList then none else some 0 := by
  have known : samePath same (FromItem.plain table).knownAs [table] = true ↔ '.' ∉ table.toList :=
    samePath_pathSegments_iff refl
  rw [level?_cons]
  by_cases dotted : '.' ∈ table.toList
  · rw [if_pos dotted, if_neg fun found => known.1 found dotted]
    rfl
  · rw [if_neg dotted, if_pos (known.2 dotted)]

end Resolving

/-! ## References of conditions -/

namespace Condition

variable (scopes : List FromItem)

theorem referencesOf_append (cs ds : List Condition) :
    referencesOf scopes (cs ++ ds) = referencesOf scopes cs ++ referencesOf scopes ds := by
  induction cs with
  | nil => rfl
  | cons c cs ih => rw [List.cons_append, referencesOf, ih, referencesOf, List.append_assoc]

theorem referencesOf_eq_flatMap (cs : List Condition) :
    referencesOf scopes cs = cs.flatMap (references scopes) := by
  induction cs with
  | nil => rfl
  | cons c cs ih => rw [referencesOf, ih, List.flatMap_cons]

theorem references_of (source : Option String) (name : String) :
    (Column.of source name).references scopes =
      source.toList.map fun s => ⟨[s], some name, scopes⟩ := by
  cases source <;> rfl

mutual

/-- A predicate about a source refers to its own columns in that source; one about bare columns has
no qualifiers. -/
theorem references_ofPredicate (source : Option String) :
    ∀ p : Predicate, (ofPredicate source p).references scopes =
      p.columns.flatMap fun name => source.toList.map fun s => ⟨[s], some name, scopes⟩
  | .none => rfl
  | .less _ _ | .greater _ _ | .isNull _ =>
      (references_of scopes ..).trans (List.flatMap_singleton ..).symm
  | .equals _ value => by
      cases value <;> exact (references_of scopes ..).trans (List.flatMap_singleton ..).symm
  | .all members => references_ofPredicates source members
  | .negation inner => references_ofPredicate source inner

theorem references_ofPredicates (source : Option String) :
    ∀ ps : List Predicate, referencesOf scopes (ofPredicates source ps) =
      (Predicate.columnsOf ps).flatMap fun name =>
        source.toList.map fun s => ⟨[s], some name, scopes⟩
  | [] => rfl
  | p :: ps => by
      rw [ofPredicates, referencesOf, references_ofPredicate source p,
        references_ofPredicates source ps, Predicate.columnsOf, List.flatMap_append]

end

end Condition

/-! ## References in the text -/

/-- A reference as it is written. -/
def Reference.tokens (reference : Reference) : List Token :=
  List.intercalate [.word .dot] (reference.qualifier.map fun s => [.segment s]) ++
    [.word .dot, (reference.column.map Token.segment).getD (.word .star)]

theorem Column.tokens_of_reference {column : Column} {scopes : List FromItem}
    {reference : Reference} (member : reference ∈ column.references scopes) :
    reference.tokens = column.tokens := by
  cases column with
  | bare name => cases member
  | qualified source name =>
      rw [List.mem_singleton.1 member]
      rfl

namespace Condition

theorem reference_infix_of_part {column : Column} {scopes : List FromItem}
    {reference : Reference} (member : reference ∈ column.references scopes)
    {parts : List (List Token)} (part : column.tokens ∈ parts) :
    reference.tokens <:+: phrase parts :=
  Column.tokens_of_reference member ▸ infix_of_part part

mutual

theorem reference_infix_tokensWithin {reference : Reference} (inConjunction : Bool) :
    ∀ (scopes : List FromItem) (c : Condition), reference ∈ c.references scopes →
      reference.tokens <:+: c.tokensWithin inConjunction
  | _, .isNull _, member | _, .compares _ _ _, member | _, .among _ _, member =>
      reference_infix_of_part member List.mem_cons_self
  | _, .sameAs _ _, member => by
      rcases List.mem_append.1 member with left | right
      · exact reference_infix_of_part left List.mem_cons_self
      · exact reference_infix_of_part right (by simp)
  | scopes, .all members, member => by
      have inside := reference_infix_conjunction scopes members member
      cases inConjunction with
      | false => exact inside
      | true => exact inside.trans (infix_parenthesized _)
  | scopes, .negation inner, member => by
      have inside := reference_infix_tokensWithin false scopes inner member
      exact (inside.trans (infix_parenthesized _)).trans
        (infix_of_part (List.mem_cons_of_mem _ (List.mem_singleton_self _)))
  | scopes, .hasRecord negated table knownAs members, member =>
      (reference_infix_conjunction _ members member).trans (conjunction_infix_hasRecord ..)

theorem reference_infix_conjunction {reference : Reference} :
    ∀ (scopes : List FromItem) (cs : List Condition), reference ∈ referencesOf scopes cs →
      reference.tokens <:+: conjunction cs
  | scopes, [c], member => by
      rw [referencesOf, referencesOf, List.append_nil] at member
      exact reference_infix_tokensWithin true scopes c member
  | scopes, c :: d :: cs, member => by
      rcases List.mem_append.1 member with first | later
      · exact (reference_infix_tokensWithin true scopes c first).trans
          (infix_of_part List.mem_cons_self)
      · exact (reference_infix_conjunction scopes (d :: cs) later).trans
          (infix_of_part (by simp))

end

theorem reference_infix_clause {reference : Reference} {scopes : List FromItem}
    {conditions : List Condition} (member : reference ∈ referencesOf scopes conditions) :
    reference.tokens <:+: phrase (whereClause conditions) :=
  (reference_infix_conjunction scopes conditions member).trans (conjunction_infix_clause conditions)

end Condition

namespace RankedLoad

/-- The window in which the records of one parent are counted. -/
def windowTokens (load : RankedLoad) : List Token :=
  phrase
    [words [.PARTITION, .BY], load.partition.tokens, words [.ORDER, .BY], load.order.tokens,
     words [directionWord load.direction]]

/-- What is selected: all columns of the table and the rank. -/
theorem selected_infix_rankedTokens (load : RankedLoad) :
    path load.table ++ [.word .dot, .word .star] ++ [.word .comma, .space] ++
        phrase
          [[.word .ROW_NUMBER, .word .opening, .word .closing], words [.OVER],
           parenthesized load.windowTokens, words [.AS], path rankColumn] <:+:
      load.rankedTokens := by
  refine infix_of_part (List.mem_append_left _ (List.mem_cons_of_mem _ (List.mem_cons.2 (.inl ?_))))
  rw [listed, List.intercalate_cons_cons, List.intercalate_singleton]
  rfl

theorem windowTokens_infix (load : RankedLoad) : load.windowTokens <:+: load.rankedTokens :=
  (((infix_parenthesized _).trans (infix_of_part (by simp))).trans
    List.infix_append_right).trans load.selected_infix_rankedTokens

theorem infix_of_reference {load : RankedLoad} {reference : Reference}
    (member : reference ∈ load.references) : reference.tokens <:+: load.tokens := by
  refine List.IsInfix.trans ?_ load.rankedTokens_infix
  simp only [references, List.mem_cons, List.mem_append] at member
  rcases member with rfl | (partition | order) | condition
  · refine List.IsInfix.trans ?_ load.selected_infix_rankedTokens
    rw [List.append_assoc]
    exact List.infix_append_left
  · exact (Condition.reference_infix_of_part partition (by simp)).trans load.windowTokens_infix
  · exact (Condition.reference_infix_of_part order (by simp)).trans load.windowTokens_infix
  · exact (Condition.reference_infix_clause condition).trans
      (infix_phrase List.infix_append_right)

end RankedLoad

/-- **Every reference of a statement stands in it.** -/
theorem Statement.infix_of_reference {statement : Statement} {reference : Reference}
    (member : reference ∈ statement.references) : reference.tokens <:+: statement.tokens := by
  cases statement with
  | rankedLoad load => exact RankedLoad.infix_of_reference member
  | insert table entries => cases member
  | _ =>
      refine List.IsInfix.trans ?_ (clause_infix_tokens _)
      exact Condition.reference_infix_clause member

end Sql

end RequestQuery
