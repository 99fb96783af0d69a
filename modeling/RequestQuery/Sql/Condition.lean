/-
# Conditions

The conditions of a statement, as a tree.  A column is bare or belongs to a source, that is to a
table or its alias; then the source and the column are one segment each, whatever they contain.

Conjunctions are written without parentheses except inside another conjunction, and the operand of
a negation is always put in parentheses.
-/
import RequestQuery.Predicate
import RequestQuery.Sql.Token

namespace RequestQuery.Sql

set_option autoImplicit false

/-! ## Columns -/

inductive Column where
  /-- A column of the only table of a statement; a name with dots is a path. -/
  | bare (name : String)
  | qualified (source name : String)
  deriving DecidableEq, Repr, Inhabited

namespace Column

/-- A column of a source, or a bare one where no source is named. -/
def of (source : Option String) (name : String) : Column :=
  match source with
  | some source => .qualified source name
  | none => .bare name

def tokens : Column → List Token
  | .bare name => path name
  | .qualified source name => [.segment source, .word .dot, .segment name]

end Column

/-! ## Conditions -/

inductive Comparison where
  | equal
  | less
  | greater
  deriving DecidableEq, Repr, Inhabited

def Comparison.word : Comparison → Word
  | .equal => .equal
  | .less => .less
  | .greater => .greater

inductive Condition where
  /-- Always true. -/
  | always
  | isNull (column : Column)
  | compares (column : Column) (comparison : Comparison) (value : Parameter)
  | sameAs (left right : Column)
  | among (column : Column) (values : List Parameter)
  | all (members : List Condition)
  | negation (inner : Condition)
  /-- Some record of a table, known by an alias, satisfies the members; negated, none does. -/
  | hasRecord (negated : Bool) (table knownAs : String) (members : List Condition)
  deriving Inhabited

namespace Condition

/-! ## Conditions from predicates -/

mutual

/-- A predicate about the columns of a source. -/
def ofPredicate (source : Option String) : Predicate → Condition
  | .none => .always
  | .equals column .null => .isNull (.of source column)
  | .equals column value => .compares (.of source column) .equal value
  | .less column value => .compares (.of source column) .less value
  | .greater column value => .compares (.of source column) .greater value
  | .isNull column => .isNull (.of source column)
  | .all members => .all (ofPredicates source members)
  | .negation inner => .negation (ofPredicate source inner)

def ofPredicates (source : Option String) : List Predicate → List Condition
  | [] => []
  | p :: ps => ofPredicate source p :: ofPredicates source ps

end

/-- The members that a predicate adds to a conjunction. -/
def conjuncts (source : Option String) (p : Predicate) : List Condition :=
  ofPredicates source p.conjuncts

/-- The guard against deleted records, where records are only marked as deleted. -/
def notDeleted (softDeletes : Bool) (column : Column) : List Condition :=
  if softDeletes then [.isNull column] else []

/-! ## Tokens -/

mutual

/-- The tokens of a condition; `inConjunction` says that it stands as the member of one. -/
def tokensWithin (inConjunction : Bool) : Condition → List Token
  | .always => words [.one, .equal, .one]
  | .isNull column => phrase [column.tokens, words [.IS, .NULL]]
  | .compares column comparison value =>
      phrase [column.tokens, words [comparison.word], [.value value]]
  | .sameAs left right => phrase [left.tokens, words [.equal], right.tokens]
  | .among column values =>
      phrase
        [column.tokens, words [.IN], parenthesized (listed (values.map fun v => [.value v]))]
  | .all members =>
      if inConjunction then parenthesized (conjunction members) else conjunction members
  | .negation inner => phrase [words [.NOT], parenthesized (tokensWithin false inner)]
  | .hasRecord negated table knownAs members =>
      phrase
        [words (if negated then [.NOT, .EXISTS] else [.EXISTS]),
         parenthesized
           (phrase
             [words [.SELECT, .one, .FROM], path table, words [.AS], path knownAs,
              words [.WHERE], conjunction members])]

/-- Conditions joined by AND. -/
def conjunction : List Condition → List Token
  | [] => []
  | [c] => tokensWithin true c
  | c :: cs => phrase [tokensWithin true c, words [.AND], conjunction cs]

end

def tokens (condition : Condition) : List Token :=
  tokensWithin false condition

end Condition

end RequestQuery.Sql
