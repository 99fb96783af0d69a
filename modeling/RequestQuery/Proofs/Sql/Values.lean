/-
# Values have places and no text

Each value of a statement stands in its text as a question mark.  So a statement whose values are
all taken out still has the same text (`sql_blank`), and what it binds are the values of its parts,
in the order of these parts (`parameters_eq_values`).

Where conditions come from predicates there is one thing that a value decides: equality with null
asks for null and binds nothing.  A predicate in outline keeps this and no more.
-/
import RequestQuery.Sql.Statement

namespace RequestQuery

set_option autoImplicit false

/-! ## Outlines -/

/-- A value of which only is left whether it is null. -/
def Parameter.outline (p : Parameter) : Parameter :=
  if p.isNull then .null else .bool true

namespace Predicate

mutual

def outline : Predicate → Predicate
  | .none => .none
  | .equals column value => .equals column value.outline
  | .less column value => .less column value.outline
  | .greater column value => .greater column value.outline
  | .isNull column => .isNull column
  | .all members => .all (outlineAll members)
  | .negation inner => .negation (outline inner)

def outlineAll : List Predicate → List Predicate
  | [] => []
  | p :: ps => outline p :: outlineAll ps

end

mutual

/-- The values that a predicate compares with; to ask for null is no comparison. -/
def values : Predicate → List Parameter
  | .none | .isNull _ => []
  | .equals _ value => if value.isNull then [] else [value]
  | .less _ value | .greater _ value => [value]
  | .all members => valuesIn members
  | .negation inner => values inner

def valuesIn : List Predicate → List Parameter
  | [] => []
  | p :: ps => values p ++ valuesIn ps

end

theorem outlineAll_eq_map (ps : List Predicate) : outlineAll ps = ps.map outline := by
  induction ps with
  | nil => rfl
  | cons p ps ih => rw [outlineAll, ih, List.map_cons]

theorem conjuncts_outline (p : Predicate) : p.outline.conjuncts = outlineAll p.conjuncts := by
  cases p <;> rfl

theorem valuesIn_conjuncts (p : Predicate) : valuesIn p.conjuncts = p.values := by
  cases p <;> first | rfl | exact List.append_nil _

end Predicate

namespace Sql

/-! ## Tokens without values -/

/-- The place of a value stays where it is. -/
def Token.blank : Token → Token
  | .value _ => .value .null
  | token => token

def blanks (ts : List Token) : List Token :=
  ts.map Token.blank

/-- **The text does not show the values.** -/
theorem textOf_blanks (ts : List Token) : textOf (blanks ts) = textOf ts := by
  have same : ∀ token : Token, token.blank.chars = token.chars := by
    intro token
    cases token <;> rfl
  rw [textOf, textOf, blanks, List.flatMap_map]
  simp only [same]

@[simp] theorem blanks_nil : blanks [] = [] := rfl

@[simp] theorem blanks_append (ts us : List Token) : blanks (ts ++ us) = blanks ts ++ blanks us :=
  List.map_append

@[simp] theorem blanks_cons_word (w : Word) (ts : List Token) :
    blanks (.word w :: ts) = .word w :: blanks ts := rfl

@[simp] theorem blanks_cons_space (ts : List Token) :
    blanks (.space :: ts) = .space :: blanks ts := rfl

@[simp] theorem blanks_cons_value (p : Parameter) (ts : List Token) :
    blanks (.value p :: ts) = .value .null :: blanks ts := rfl

@[simp] theorem blanks_cons_segment (name : String) (ts : List Token) :
    blanks (.segment name :: ts) = .segment name :: blanks ts := rfl

theorem blanks_intercalate (separator : List Token) (parts : List (List Token)) :
    blanks (List.intercalate separator parts) =
      List.intercalate (blanks separator) (parts.map blanks) :=
  map_intercalate blanks_nil blanks_append separator parts

@[simp] theorem blanks_phrase (parts : List (List Token)) :
    blanks (phrase parts) = phrase (parts.map blanks) :=
  blanks_intercalate _ parts

@[simp] theorem blanks_listed (items : List (List Token)) :
    blanks (listed items) = listed (items.map blanks) :=
  blanks_intercalate _ items

@[simp] theorem blanks_parenthesized (ts : List Token) :
    blanks (parenthesized ts) = parenthesized (blanks ts) := by
  simp [parenthesized]

@[simp] theorem blanks_words (ws : List Word) : blanks (words ws) = words ws := by
  rw [words, blanks_phrase, List.map_map]
  rfl

@[simp] theorem blanks_path (name : String) : blanks (path name) = path name := by
  rw [path, blanks_intercalate, List.map_map]
  rfl

@[simp] theorem Column.blanks_tokens (column : Column) : blanks column.tokens = column.tokens := by
  cases column with
  | bare name => exact blanks_path name
  | qualified source name => rfl

/-! ## Conditions without values -/

namespace Condition

mutual

def blank : Condition → Condition
  | .always => .always
  | .isNull column => .isNull column
  | .compares column comparison _ => .compares column comparison .null
  | .sameAs left right => .sameAs left right
  | .among column values => .among column (values.map fun _ => .null)
  | .all members => .all (blankAll members)
  | .negation inner => .negation (blank inner)
  | .hasRecord negated table knownAs members => .hasRecord negated table knownAs (blankAll members)

def blankAll : List Condition → List Condition
  | [] => []
  | c :: cs => blank c :: blankAll cs

end

mutual

/-- The values of a condition, in the order of their places. -/
def values : Condition → List Parameter
  | .always | .isNull _ | .sameAs _ _ => []
  | .compares _ _ value => [value]
  | .among _ values => values
  | .all members => valuesIn members
  | .negation inner => values inner
  | .hasRecord _ _ _ members => valuesIn members

def valuesIn : List Condition → List Parameter
  | [] => []
  | c :: cs => values c ++ valuesIn cs

end

theorem blankAll_eq_map (cs : List Condition) : blankAll cs = cs.map blank := by
  induction cs with
  | nil => rfl
  | cons c cs ih => rw [blankAll, ih, List.map_cons]

theorem valuesIn_eq_flatMap (cs : List Condition) : valuesIn cs = cs.flatMap values := by
  induction cs with
  | nil => rfl
  | cons c cs ih => rw [valuesIn, ih, List.flatMap_cons]

mutual

theorem blanks_tokensWithin (inConjunction : Bool) :
    ∀ c : Condition, blanks (c.tokensWithin inConjunction) = c.blank.tokensWithin inConjunction
  | .always => by simp [tokensWithin, blank]
  | .isNull column => by simp [tokensWithin, blank]
  | .compares column comparison value => by simp [tokensWithin, blank]
  | .sameAs left right => by simp [tokensWithin, blank]
  | .among column values => by
      simp only [tokensWithin, blank, blanks_phrase, blanks_parenthesized, blanks_listed,
        List.map_cons, List.map_nil, List.map_map, Column.blanks_tokens, blanks_words]
      rfl
  | .all members => by
      have inner := blanks_conjunction members
      simp only [tokensWithin, blank]
      split
      · rw [blanks_parenthesized, inner]
      · exact inner
  | .negation c => by
      have inner := blanks_tokensWithin false c
      simp [tokensWithin, blank, inner]
  | .hasRecord negated table knownAs members => by
      have inner := blanks_conjunction members
      simp [tokensWithin, blank, inner]

theorem blanks_conjunction :
    ∀ cs : List Condition, blanks (conjunction cs) = conjunction (blankAll cs)
  | [] => rfl
  | [c] => by
      have only := blanks_tokensWithin true c
      simp [conjunction, blankAll, only]
  | c :: d :: cs => by
      have first := blanks_tokensWithin true c
      have others := blanks_conjunction (d :: cs)
      simp [conjunction, blankAll, first, others]

end

end Condition

namespace Condition

/-! ## Conditions from predicates -/

mutual

/-- An outline of a predicate is enough to know where values go. -/
theorem blank_ofPredicate (source : Option String) :
    ∀ p : Predicate, (ofPredicate source p.outline).blank = (ofPredicate source p).blank
  | .none => rfl
  | .equals column value => by cases value <;> rfl
  | .less column value => rfl
  | .greater column value => rfl
  | .isNull column => rfl
  | .all members => by
      have inner := blankAll_ofPredicates source members
      simp only [Predicate.outline, ofPredicate, blank, inner]
  | .negation p => by
      have inner := blank_ofPredicate source p
      simp only [Predicate.outline, ofPredicate, blank, inner]

theorem blankAll_ofPredicates (source : Option String) :
    ∀ ps : List Predicate, blankAll (ofPredicates source (Predicate.outlineAll ps)) =
      blankAll (ofPredicates source ps)
  | [] => rfl
  | p :: ps => by
      have first := blank_ofPredicate source p
      have others := blankAll_ofPredicates source ps
      simp only [Predicate.outlineAll, ofPredicates, blankAll, first, others]

end

mutual

theorem values_ofPredicate (source : Option String) :
    ∀ p : Predicate, (ofPredicate source p).values = p.values
  | .none => rfl
  | .equals column value => by cases value <;> rfl
  | .less column value => rfl
  | .greater column value => rfl
  | .isNull column => rfl
  | .all members => valuesIn_ofPredicates source members
  | .negation p => values_ofPredicate source p

theorem valuesIn_ofPredicates (source : Option String) :
    ∀ ps : List Predicate, valuesIn (ofPredicates source ps) = Predicate.valuesIn ps
  | [] => rfl
  | p :: ps => by
      rw [ofPredicates, valuesIn, Predicate.valuesIn, values_ofPredicate source p,
        valuesIn_ofPredicates source ps]

end

theorem blankAll_append (cs ds : List Condition) :
    blankAll (cs ++ ds) = blankAll cs ++ blankAll ds := by
  simp only [blankAll_eq_map, List.map_append]

theorem valuesIn_append (cs ds : List Condition) :
    valuesIn (cs ++ ds) = valuesIn cs ++ valuesIn ds := by
  simp only [valuesIn_eq_flatMap, List.flatMap_append]

theorem blankAll_conjuncts (source : Option String) (p : Predicate) :
    blankAll (conjuncts source p.outline) = blankAll (conjuncts source p) := by
  rw [conjuncts, conjuncts, Predicate.conjuncts_outline, blankAll_ofPredicates]

theorem valuesIn_conjuncts (source : Option String) (p : Predicate) :
    valuesIn (conjuncts source p) = p.values := by
  rw [conjuncts, valuesIn_ofPredicates, Predicate.valuesIn_conjuncts]

theorem valuesIn_notDeleted (softDeletes : Bool) (column : Column) :
    valuesIn (notDeleted softDeletes column) = [] := by
  cases softDeletes <;> rfl

end Condition

/-! ## Values among tokens -/

@[simp] theorem valuesOf_nil : valuesOf [] = [] := rfl

@[simp] theorem valuesOf_cons_word (w : Word) (ts : List Token) :
    valuesOf (.word w :: ts) = valuesOf ts := rfl

@[simp] theorem valuesOf_cons_space (ts : List Token) : valuesOf (.space :: ts) = valuesOf ts := rfl

@[simp] theorem valuesOf_cons_value (p : Parameter) (ts : List Token) :
    valuesOf (.value p :: ts) = p :: valuesOf ts := rfl

@[simp] theorem valuesOf_cons_segment (name : String) (ts : List Token) :
    valuesOf (.segment name :: ts) = valuesOf ts := rfl

theorem valuesOf_intercalate {separator : List Token} (silent : valuesOf separator = [])
    (parts : List (List Token)) :
    valuesOf (List.intercalate separator parts) = parts.flatMap valuesOf :=
  filterMap_intercalate silent parts

@[simp] theorem valuesOf_phrase (parts : List (List Token)) :
    valuesOf (phrase parts) = parts.flatMap valuesOf :=
  valuesOf_intercalate rfl parts

@[simp] theorem valuesOf_listed (items : List (List Token)) :
    valuesOf (listed items) = items.flatMap valuesOf :=
  valuesOf_intercalate rfl items

@[simp] theorem valuesOf_parenthesized (ts : List Token) :
    valuesOf (parenthesized ts) = valuesOf ts := by
  simp [parenthesized, valuesOf_append]

@[simp] theorem valuesOf_words (ws : List Word) : valuesOf (words ws) = [] := by
  simp [words, List.flatMap_map]

@[simp] theorem valuesOf_path (name : String) : valuesOf (path name) = [] := by
  rw [path, valuesOf_intercalate rfl, List.flatMap_map]
  simp

@[simp] theorem Column.valuesOf_tokens (column : Column) : valuesOf column.tokens = [] := by
  cases column with
  | bare name => exact valuesOf_path name
  | qualified source name => rfl

namespace Condition

mutual

theorem valuesOf_tokensWithin (inConjunction : Bool) :
    ∀ c : Condition, valuesOf (c.tokensWithin inConjunction) = c.values
  | .always => by simp [tokensWithin, values]
  | .isNull column => by simp [tokensWithin, values]
  | .compares column comparison value => by simp [tokensWithin, values]
  | .sameAs left right => by simp [tokensWithin, values]
  | .among column values => by simp [tokensWithin, Condition.values, List.flatMap_map]
  | .all members => by
      have inner := valuesOf_conjunction members
      simp only [tokensWithin, values]
      split
      · rw [valuesOf_parenthesized, inner]
      · exact inner
  | .negation c => by
      have inner := valuesOf_tokensWithin false c
      simp [tokensWithin, values, inner]
  | .hasRecord negated table knownAs members => by
      have inner := valuesOf_conjunction members
      simp [tokensWithin, values, inner]

theorem valuesOf_conjunction :
    ∀ cs : List Condition, valuesOf (conjunction cs) = valuesIn cs
  | [] => rfl
  | [c] => by
      have only := valuesOf_tokensWithin true c
      simp [conjunction, valuesIn, only]
  | c :: d :: cs => by
      have first := valuesOf_tokensWithin true c
      have others := valuesOf_conjunction (d :: cs)
      simp [conjunction, valuesIn, first, others]

end

end Condition

/-! ## Statements -/

theorem map_blanks_whereClause (conditions : List Condition) :
    (whereClause conditions).map blanks = whereClause (Condition.blankAll conditions) := by
  cases conditions with
  | nil => rfl
  | cons c cs =>
      have inner := Condition.blanks_conjunction (c :: cs)
      rw [Condition.blankAll] at inner
      simp [whereClause, Condition.blankAll, inner]

theorem valuesOf_whereClause (conditions : List Condition) :
    (whereClause conditions).flatMap valuesOf = Condition.valuesIn conditions := by
  cases conditions with
  | nil => rfl
  | cons c cs => simp [whereClause, Condition.valuesOf_conjunction]

theorem map_blanks_groupByClause (keys : List String) :
    (groupByClause keys).map blanks = groupByClause keys := by
  unfold groupByClause
  split
  · rfl
  · simp [Function.comp_def]

theorem map_blanks_orderByClause (keys : List OrderKey) :
    (orderByClause keys).map blanks = orderByClause keys := by
  unfold orderByClause
  split
  · rfl
  · simp [Function.comp_def]

theorem blanks_projectionTokens (projection : Option (List String)) :
    blanks (projectionTokens projection) = projectionTokens projection := by
  cases projection with
  | none => exact blanks_words _
  | some names => simp [projectionTokens, Function.comp_def]

theorem valuesOf_groupByClause (keys : List String) :
    (groupByClause keys).flatMap valuesOf = [] := by
  have named : (keys.map path).flatMap valuesOf = [] := by
    simp only [List.flatMap_map, valuesOf_path, List.flatMap_eq_nil_iff, implies_true]
  unfold groupByClause
  split
  · rfl
  · simp [named]

theorem valuesOf_orderByClause (keys : List OrderKey) :
    (orderByClause keys).flatMap valuesOf = [] := by
  have named : (keys.map fun key => phrase [path key.column, words [directionWord key.order]]
      ).flatMap valuesOf = [] := by
    simp [List.flatMap_map]
  unfold orderByClause
  split
  · rfl
  · simp [named]

theorem valuesOf_projectionTokens (projection : Option (List String)) :
    valuesOf (projectionTokens projection) = [] := by
  cases projection with
  | none => exact valuesOf_words _
  | some names => simp [projectionTokens, List.flatMap_map]

namespace RankedLoad

def blank (load : RankedLoad) : RankedLoad :=
  { load with
    conditions := Condition.blankAll load.conditions
    limit := load.limit.map fun _ => .null }

theorem blanks_tokens (load : RankedLoad) : blanks load.tokens = load.blank.tokens := by
  cases h : load.limit <;>
    simp [tokens, rankedTokens, limitClause, blank, h, map_blanks_whereClause]

theorem valuesOf_tokens (load : RankedLoad) :
    valuesOf load.tokens = Condition.valuesIn load.conditions ++ load.limit.toList := by
  cases h : load.limit <;>
    simp [tokens, rankedTokens, limitClause, h, valuesOf_whereClause, valuesOf_append]

end RankedLoad

namespace Statement

/-- A statement with null in the place of each value. -/
def blank : Statement → Statement
  | .select projection table conditions groupBy orderBy =>
      .select projection table (Condition.blankAll conditions) groupBy orderBy
  | .rankedLoad load => .rankedLoad load.blank
  | .lookup table conditions => .lookup table (Condition.blankAll conditions)
  | .insert table entries => .insert table (entries.map fun entry => (entry.1, .null))
  | .update table entries conditions =>
      .update table (entries.map fun entry => (entry.1, .null)) (Condition.blankAll conditions)
  | .delete table conditions => .delete table (Condition.blankAll conditions)

/-- The values of a statement, part by part. -/
def values : Statement → List Parameter
  | .select _ _ conditions _ _ => Condition.valuesIn conditions
  | .rankedLoad load => Condition.valuesIn load.conditions ++ load.limit.toList
  | .lookup _ conditions => Condition.valuesIn conditions
  | .insert _ entries => entries.map (·.2)
  | .update _ entries conditions => entries.map (·.2) ++ Condition.valuesIn conditions
  | .delete _ conditions => Condition.valuesIn conditions

theorem blanks_tokens (statement : Statement) : blanks statement.tokens = statement.blank.tokens := by
  cases statement with
  | select projection table conditions groupBy orderBy =>
      simp [tokens, blank, blanks_projectionTokens, map_blanks_whereClause,
        map_blanks_groupByClause, map_blanks_orderByClause]
  | rankedLoad load => exact load.blanks_tokens
  | lookup table conditions => simp [tokens, blank, map_blanks_whereClause]
  | insert table entries =>
      cases entries <;> simp [tokens, blank, insertedTokens, Function.comp_def]
  | update table entries conditions =>
      simp [tokens, blank, map_blanks_whereClause, Function.comp_def]
  | delete table conditions => simp [tokens, blank, map_blanks_whereClause]

/-- **The text of a statement is the same without its values.** -/
theorem sql_blank (statement : Statement) : statement.blank.sql = statement.sql := by
  rw [sql, sql, ← blanks_tokens, textOf_blanks]

theorem sql_eq_of_blank {s t : Statement} (same : s.blank = t.blank) : s.sql = t.sql := by
  rw [← sql_blank s, ← sql_blank t, same]

/-- **What a statement binds** are the values of its parts in their order. -/
theorem parameters_eq_values (statement : Statement) : statement.parameters = statement.values := by
  unfold parameters
  cases statement with
  | select projection table conditions groupBy orderBy =>
      simp [tokens, values, valuesOf_projectionTokens, valuesOf_whereClause,
        valuesOf_groupByClause, valuesOf_orderByClause]
  | rankedLoad load => exact load.valuesOf_tokens
  | lookup table conditions => simp [tokens, values, valuesOf_whereClause]
  | insert table entries =>
      have named : entries.flatMap (fun _ => ([] : List Parameter)) = [] := by simp
      unfold tokens insertedTokens
      by_cases empty : entries.isEmpty = true
      · simp [values, List.isEmpty_iff.1 empty]
      · simp [values, empty, List.flatMap_map, named, ← List.map_eq_flatMap]
  | update table entries conditions =>
      simp [tokens, values, valuesOf_whereClause, List.flatMap_map, ← List.map_eq_flatMap]
  | delete table conditions => simp [tokens, values, valuesOf_whereClause]

end Statement

end Sql

end RequestQuery
