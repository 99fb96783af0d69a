/-
# Statements

The statements that are sent to a store, as trees.  Each has a list of tokens, from which its text
and its values are taken, so the places in the text and the values agree in number and order.
-/
import RequestQuery.Sql.Condition
import RequestQuery.SortOrder

namespace RequestQuery.Sql

set_option autoImplicit false

/-- The column in which a ranked load counts the records of one parent. -/
def rankColumn : String := "__quarry_rank"

/-- The name of the ranked records. -/
def rankedAlias : String := "__quarry_ranked"

/-- The related records of many parents at once, in the order of their rank within one parent. -/
structure RankedLoad where
  table : String
  /-- The key that tells which parent a record belongs to. -/
  partition : Column
  order : Column
  direction : SortOrder
  conditions : List Condition
  /-- The greatest rank. -/
  limit : Option Parameter
  deriving Inhabited

inductive Statement where
  | select (projection : Option (List String)) (table : String) (conditions : List Condition)
      (groupBy : List String) (orderBy : List OrderKey)
  | rankedLoad (load : RankedLoad)
  /-- At most one record. -/
  | lookup (table : String) (conditions : List Condition)
  | insert (table : String) (entries : Ordered Parameter)
  | update (table : String) (entries : Ordered Parameter) (conditions : List Condition)
  | delete (table : String) (conditions : List Condition)
  deriving Inhabited

/-! ## Clauses -/

def whereClause (conditions : List Condition) : List (List Token) :=
  if conditions.isEmpty then [] else [words [.WHERE], Condition.conjunction conditions]

def directionWord : SortOrder → Word
  | .ascending => .ASC
  | .descending => .DESC

def projectionTokens : Option (List String) → List Token
  | some names => listed (names.map path)
  | none => words [.star]

def groupByClause (keys : List String) : List (List Token) :=
  if keys.isEmpty then [] else [words [.GROUP, .BY], listed (keys.map path)]

def orderByClause (keys : List OrderKey) : List (List Token) :=
  if keys.isEmpty then []
  else
    [words [.ORDER, .BY],
     listed (keys.map fun key => phrase [path key.column, words [directionWord key.order]])]

namespace RankedLoad

/-- The records with their rank, before the limit. -/
def rankedTokens (load : RankedLoad) : List Token :=
  let window :=
    phrase
      [words [.PARTITION, .BY], load.partition.tokens, words [.ORDER, .BY], load.order.tokens,
       words [directionWord load.direction]]
  let rank :=
    phrase
      [[.word .ROW_NUMBER, .word .opening, .word .closing], words [.OVER], parenthesized window,
       words [.AS], path rankColumn]
  phrase
    ([words [.SELECT], listed [path load.table ++ [.word .dot, .word .star], rank],
      words [.FROM], path load.table] ++ whereClause load.conditions)

def limitClause (load : RankedLoad) : List (List Token) :=
  match load.limit with
  | some limit => [words [.WHERE], path rankColumn, words [.atMost], [.value limit]]
  | none => []

def tokens (load : RankedLoad) : List Token :=
  phrase
    ([words [.SELECT, .star, .FROM], parenthesized load.rankedTokens, words [.AS],
      path rankedAlias] ++ load.limitClause ++ [words [.ORDER, .BY], path rankColumn])

end RankedLoad

namespace Statement

/-! ## Tokens, text and values -/

def insertedTokens (entries : Ordered Parameter) : List (List Token) :=
  if entries.isEmpty then [words [.DEFAULT, .VALUES]]
  else
    [parenthesized (listed (entries.map fun entry => path entry.1)), words [.VALUES],
     parenthesized (listed (entries.map fun entry => [.value entry.2]))]

def tokens : Statement → List Token
  | .select projection table conditions groupBy orderBy =>
      phrase
        ([words [.SELECT], projectionTokens projection, words [.FROM], path table] ++
          whereClause conditions ++ groupByClause groupBy ++ orderByClause orderBy)
  | .rankedLoad load => load.tokens
  | .lookup table conditions =>
      phrase
        ([words [.SELECT, .star, .FROM], path table] ++ whereClause conditions ++
          [words [.LIMIT, .one]])
  | .insert table entries =>
      phrase ([words [.INSERT, .INTO], path table] ++ insertedTokens entries)
  | .update table entries conditions =>
      phrase
        ([words [.UPDATE], path table, words [.SET],
          listed (entries.map fun entry =>
            phrase [path entry.1, words [.equal], [.value entry.2]])] ++
          whereClause conditions)
  | .delete table conditions =>
      phrase ([words [.DELETE, .FROM], path table] ++ whereClause conditions)

def sql (statement : Statement) : String :=
  textOf statement.tokens

def parameters (statement : Statement) : List Parameter :=
  valuesOf statement.tokens

def toJson (statement : Statement) : Json.Value :=
  .object
    [("sql", .string statement.sql),
     ("params", .array (statement.parameters.map Parameter.toJson))]

end Statement

end RequestQuery.Sql
