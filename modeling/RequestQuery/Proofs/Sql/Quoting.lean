/-
# Names stay inside their quotes

What a statement names and what it binds, read off its tree (`Statement.names`,
`Statement.parameters`), against what a lexer finds in its text.  Outside of quotes there is nothing
but the vocabulary; the identifiers are the segments of the names, in order; and the placeholders
are as many as the values and stand where these were put.

A name is any text here, with quotes, dots, question marks or nothing in it.  A bare name is cut at
its dots; a column of a source, and the source itself, are one segment each (`Column.Cut`).
-/
import RequestQuery.Proofs.Sql.Lexing
import RequestQuery.Proofs.Text.Splitting

namespace RequestQuery.Sql

set_option autoImplicit false

/-! ## The names of a statement -/

/-- The segments that a name is written in. -/
def Column.segments : Column → List String
  | .bare name => pathSegments name
  | .qualified source name => [source, name]

/-- Segments are those of a name: of a bare one its longest parts without dots, of a qualified one
the source and the column. -/
def Column.Cut (column : Column) (segments : List String) : Prop :=
  match column with
  | .bare name => segments ≠ [] ∧ (∀ segment ∈ segments, '.' ∉ segment.toList) ∧
      String.intercalate "." segments = name
  | .qualified source name => segments = [source, name]

/-- **A name is cut in one way.** -/
theorem Column.cut_iff {column : Column} {segments : List String} :
    column.Cut segments ↔ column.segments = segments := by
  cases column with
  | bare name => exact Text.splitOn_eq_iff.symm
  | qualified source name => exact eq_comm

namespace Condition

mutual

def names : Condition → List Column
  | .always => []
  | .isNull column => [column]
  | .compares column _ _ => [column]
  | .sameAs left right => [left, right]
  | .among column _ => [column]
  | .all members => namesOf members
  | .negation inner => names inner
  | .hasRecord _ table knownAs members => .bare table :: .bare knownAs :: namesOf members

def namesOf : List Condition → List Column
  | [] => []
  | c :: cs => names c ++ namesOf cs

end

end Condition

def RankedLoad.names (load : RankedLoad) : List Column :=
  [.bare load.table, load.partition, load.order, .bare rankColumn, .bare load.table] ++
    Condition.namesOf load.conditions ++ [.bare rankedAlias] ++
    (load.limit.map fun _ => .bare rankColumn).toList ++ [.bare rankColumn]

/-- The names that a statement is meant to hold, in the order of its text. -/
def Statement.names : Statement → List Column
  | .select projection table conditions groupBy orderBy =>
      (projection.getD []).map .bare ++ [.bare table] ++ Condition.namesOf conditions ++
        groupBy.map .bare ++ orderBy.map fun key => .bare key.column
  | .rankedLoad load => load.names
  | .lookup table conditions => .bare table :: Condition.namesOf conditions
  | .insert table entries => .bare table :: entries.map fun entry => .bare entry.1
  | .update table entries conditions =>
      .bare table :: (entries.map fun entry => .bare entry.1) ++ Condition.namesOf conditions
  | .delete table conditions => .bare table :: Condition.namesOf conditions

/-! ## The segments among the tokens -/

def Token.segment? : Token → Option String
  | .segment name => some name
  | _ => none

def segmentsOf (ts : List Token) : List String :=
  ts.filterMap Token.segment?

@[simp] theorem segmentsOf_nil : segmentsOf [] = [] := rfl

@[simp] theorem segmentsOf_append (ts us : List Token) :
    segmentsOf (ts ++ us) = segmentsOf ts ++ segmentsOf us :=
  List.filterMap_append

@[simp] theorem segmentsOf_cons_word (w : Word) (ts : List Token) :
    segmentsOf (.word w :: ts) = segmentsOf ts := rfl

@[simp] theorem segmentsOf_cons_space (ts : List Token) :
    segmentsOf (.space :: ts) = segmentsOf ts := rfl

@[simp] theorem segmentsOf_cons_value (p : Parameter) (ts : List Token) :
    segmentsOf (.value p :: ts) = segmentsOf ts := rfl

@[simp] theorem segmentsOf_cons_segment (name : String) (ts : List Token) :
    segmentsOf (.segment name :: ts) = name :: segmentsOf ts := rfl

theorem segmentsOf_intercalate {separator : List Token} (silent : segmentsOf separator = [])
    (parts : List (List Token)) :
    segmentsOf (List.intercalate separator parts) = parts.flatMap segmentsOf :=
  filterMap_intercalate silent parts

@[simp] theorem segmentsOf_phrase (parts : List (List Token)) :
    segmentsOf (phrase parts) = parts.flatMap segmentsOf :=
  segmentsOf_intercalate rfl parts

@[simp] theorem segmentsOf_listed (items : List (List Token)) :
    segmentsOf (listed items) = items.flatMap segmentsOf :=
  segmentsOf_intercalate rfl items

@[simp] theorem segmentsOf_parenthesized (ts : List Token) :
    segmentsOf (parenthesized ts) = segmentsOf ts := by
  simp [parenthesized]

@[simp] theorem segmentsOf_words (ws : List Word) : segmentsOf (words ws) = [] := by
  simp [words, List.flatMap_map]

@[simp] theorem segmentsOf_path (name : String) :
    segmentsOf (path name) = (Column.bare name).segments := by
  rw [path, segmentsOf_intercalate rfl, List.flatMap_map]
  simp [Column.segments]

@[simp] theorem Column.segmentsOf_tokens (column : Column) :
    segmentsOf column.tokens = column.segments := by
  cases column with
  | bare name => exact segmentsOf_path name
  | qualified source name => rfl

namespace Condition

mutual

theorem segmentsOf_tokensWithin (inConjunction : Bool) :
    ∀ c : Condition,
      segmentsOf (c.tokensWithin inConjunction) = c.names.flatMap Column.segments
  | .always => by simp [tokensWithin, names]
  | .isNull column => by simp [tokensWithin, names]
  | .compares column comparison value => by simp [tokensWithin, names]
  | .sameAs left right => by simp [tokensWithin, names]
  | .among column values => by simp [tokensWithin, names, List.flatMap_map]
  | .all members => by
      have inner := segmentsOf_conjunction members
      simp only [tokensWithin, names]
      split
      · rw [segmentsOf_parenthesized, inner]
      · exact inner
  | .negation c => by
      have inner := segmentsOf_tokensWithin false c
      simp [tokensWithin, names, inner]
  | .hasRecord negated table knownAs members => by
      have inner := segmentsOf_conjunction members
      simp [tokensWithin, names, inner]

theorem segmentsOf_conjunction :
    ∀ cs : List Condition, segmentsOf (conjunction cs) = (namesOf cs).flatMap Column.segments
  | [] => rfl
  | [c] => by
      have only := segmentsOf_tokensWithin true c
      simp [conjunction, namesOf, only]
  | c :: d :: cs => by
      have first := segmentsOf_tokensWithin true c
      have others := segmentsOf_conjunction (d :: cs)
      simp [conjunction, namesOf, first, others]

end

end Condition

theorem segmentsOf_whereClause (conditions : List Condition) :
    (whereClause conditions).flatMap segmentsOf =
      (Condition.namesOf conditions).flatMap Column.segments := by
  cases conditions with
  | nil => rfl
  | cons c cs => simp [whereClause, Condition.segmentsOf_conjunction]

theorem RankedLoad.segmentsOf_tokens (load : RankedLoad) :
    segmentsOf load.tokens = load.names.flatMap Column.segments := by
  cases h : load.limit <;>
    simp [tokens, rankedTokens, limitClause, names, h, segmentsOf_whereClause]

/-- The segments of a statement are those of its names. -/
theorem Statement.segmentsOf_tokens (statement : Statement) :
    segmentsOf statement.tokens = statement.names.flatMap Column.segments := by
  cases statement with
  | select projection table conditions groupBy orderBy =>
      cases projection <;> cases groupBy <;> cases orderBy <;>
        simp [tokens, names, projectionTokens, groupByClause, orderByClause,
          segmentsOf_whereClause, List.flatMap_map]
  | rankedLoad load => exact load.segmentsOf_tokens
  | lookup table conditions => simp [tokens, names, segmentsOf_whereClause]
  | insert table entries =>
      cases entries <;> simp [tokens, names, insertedTokens, List.flatMap_map]
  | update table entries conditions =>
      simp [tokens, names, segmentsOf_whereClause, List.flatMap_map]
  | delete table conditions => simp [tokens, names, segmentsOf_whereClause]

/-! ## What a lexer finds -/

theorem names_lexemes (ts : List Token) :
    (ts.map Token.lexeme).filterMap Lexeme.name? = segmentsOf ts := by
  rw [List.filterMap_map]
  exact List.filterMap_congr fun t _ => by cases t <;> rfl

theorem words_lexemes (ts : List Token) :
    ∀ text ∈ (ts.map Token.lexeme).filterMap Lexeme.word?, text ∈ Word.vocabulary := by
  intro text mem
  simp only [List.filterMap_map, List.mem_filterMap] at mem
  obtain ⟨t, -, found⟩ := mem
  cases t with
  | word w =>
      cases found
      exact List.mem_map_of_mem (List.mem_of_find?_eq_some w.ofText?_text)
  | space | segment _ | value _ => cases found

theorem count_placeholder_lexemes (ts : List Token) :
    (ts.map Token.lexeme).count .placeholder = (valuesOf ts).length := by
  induction ts with
  | nil => rfl
  | cons t ts ih => cases t <;> simp [valuesOf, Token.lexeme, Token.value?] at ih ⊢ <;> exact ih

theorem Statement.lex_text (statement : Statement) :
    lex statement.sql.toList = some (statement.tokens.map Token.lexeme) := by
  rw [sql, textOf, String.toList_ofList]
  exact lex_chars statement.spaced_tokens

/-- The identifiers of a text, without their quotes. -/
def identifiers? (sql : String) : Option (List String) :=
  (lex sql.toList).map fun lexemes => lexemes.filterMap Lexeme.name?

theorem Statement.identifiers?_sql (statement : Statement) :
    identifiers? statement.sql = some (statement.names.flatMap Column.segments) := by
  rw [identifiers?, statement.lex_text, Option.map_some, names_lexemes, statement.segmentsOf_tokens]

/-- **No name escapes its quotes, and every placeholder has its value.**  The text of a statement is
a sequence of lexemes; its words belong to the vocabulary, its identifiers are the segments of the
names the statement is meant to hold, which are cut at their dots unless they are qualified, it has
a placeholder for every value, and putting the values in the places of the placeholders gives the
very tokens that were rendered. -/
theorem lex_sql (statement : Statement) :
    ∃ lexemes, lex statement.sql.toList = some lexemes ∧
      (∀ text ∈ lexemes.filterMap Lexeme.word?, text ∈ Word.vocabulary) ∧
      lexemes.filterMap Lexeme.name? = statement.names.flatMap Column.segments ∧
      (∀ column ∈ statement.names, column.Cut column.segments) ∧
      lexemes.count .placeholder = statement.parameters.length ∧
      tokensOf lexemes statement.parameters = some statement.tokens := by
  refine ⟨statement.tokens.map Token.lexeme, statement.lex_text, words_lexemes _, ?_,
    fun _ _ => Column.cut_iff.2 rfl, count_placeholder_lexemes _, tokensOf_lexemes _⟩
  rw [names_lexemes, statement.segmentsOf_tokens]

end RequestQuery.Sql
