/-
# Tokens

A statement is a list of tokens before it is a text.  A token is a word of a fixed vocabulary, a
blank, one segment of a name, or the place of a value.  So nothing but a segment carries a text of
its own, and that one is quoted; and the values of a statement are read off its tokens in the order
of their places.  Text and values of joined token lists are those of their parts.
-/
import RequestQuery.Parameter
import RequestQuery.Sql.Name

namespace RequestQuery.Sql

set_option autoImplicit false

/-! ## The vocabulary -/

inductive Word where
  | SELECT | FROM | WHERE | AND | NOT | EXISTS | AS | IS | NULL | IN
  | GROUP | ORDER | BY | ASC | DESC | LIMIT
  | ROW_NUMBER | OVER | PARTITION
  | INSERT | INTO | DEFAULT | VALUES | UPDATE | SET | DELETE
  | one | star | comma | dot | opening | closing | equal | less | greater | atMost
  deriving DecidableEq, Repr

def Word.text : Word → String
  | .SELECT => "SELECT"
  | .FROM => "FROM"
  | .WHERE => "WHERE"
  | .AND => "AND"
  | .NOT => "NOT"
  | .EXISTS => "EXISTS"
  | .AS => "AS"
  | .IS => "IS"
  | .NULL => "NULL"
  | .IN => "IN"
  | .GROUP => "GROUP"
  | .ORDER => "ORDER"
  | .BY => "BY"
  | .ASC => "ASC"
  | .DESC => "DESC"
  | .LIMIT => "LIMIT"
  | .ROW_NUMBER => "ROW_NUMBER"
  | .OVER => "OVER"
  | .PARTITION => "PARTITION"
  | .INSERT => "INSERT"
  | .INTO => "INTO"
  | .DEFAULT => "DEFAULT"
  | .VALUES => "VALUES"
  | .UPDATE => "UPDATE"
  | .SET => "SET"
  | .DELETE => "DELETE"
  | .one => "1"
  | .star => "*"
  | .comma => ","
  | .dot => "."
  | .opening => "("
  | .closing => ")"
  | .equal => "="
  | .less => "<"
  | .greater => ">"
  | .atMost => "<="

/-! ## Tokens -/

inductive Token where
  | word (w : Word)
  | space
  | segment (name : String)
  /-- The place of a value. -/
  | value (p : Parameter)

namespace Token

def chars : Token → List Char
  | .word w => w.text.toList
  | .space => [' ']
  | .segment name => segmentChars name.toList
  | .value _ => ['?']

def value? : Token → Option Parameter
  | .value p => some p
  | _ => none

end Token

/-- The text of a list of tokens. -/
def textOf (tokens : List Token) : String :=
  String.ofList (tokens.flatMap Token.chars)

/-- The values of a list of tokens. -/
def valuesOf (tokens : List Token) : List Parameter :=
  tokens.filterMap Token.value?

theorem valuesOf_append (s t : List Token) : valuesOf (s ++ t) = valuesOf s ++ valuesOf t :=
  List.filterMap_append

/-! ## Phrases -/

/-- Words with blanks between them. -/
def phrase (parts : List (List Token)) : List Token :=
  List.intercalate [.space] parts

def words (ws : List Word) : List Token :=
  phrase (ws.map fun w => [.word w])

/-- A list with commas. -/
def listed (items : List (List Token)) : List Token :=
  List.intercalate [.word .comma, .space] items

def parenthesized (tokens : List Token) : List Token :=
  .word .opening :: tokens ++ [.word .closing]

/-- A function of token lists that respects joining goes through to the parts of a phrase. -/
theorem map_intercalate {β : Type} {f : List Token → List β} (empty : f [] = [])
    (append : ∀ s t, f (s ++ t) = f s ++ f t) (separator : List Token)
    (parts : List (List Token)) :
    f (List.intercalate separator parts) = List.intercalate (f separator) (parts.map f) := by
  induction parts with
  | nil => exact empty
  | cons part parts ih =>
      cases parts with
      | nil => rw [List.map_singleton, List.intercalate_singleton, List.intercalate_singleton]
      | cons next parts =>
          simp only [List.map_cons, List.intercalate_cons_cons] at ih ⊢
          rw [append, append, ih]

/-- What is picked out of a phrase comes from its parts, if its separators hold nothing of it. -/
theorem filterMap_intercalate {β : Type} {f : Token → Option β} {separator : List Token}
    (silent : separator.filterMap f = []) (parts : List (List Token)) :
    (List.intercalate separator parts).filterMap f = parts.flatMap (List.filterMap f) := by
  induction parts with
  | nil => rfl
  | cons part parts ih =>
      cases parts with
      | nil => simp
      | cons next parts =>
          rw [List.intercalate_cons_cons, List.filterMap_append, List.filterMap_append, ih, silent]
          simp

/-- A name as a path of segments. -/
def path (name : String) : List Token :=
  List.intercalate [.word .dot] ((pathSegments name).map fun s => [.segment s])

theorem textOf_path (name : String) : textOf (path name) = quoteName name := by
  have parts := map_intercalate (f := List.flatMap Token.chars) List.flatMap_nil
    (fun _ _ => List.flatMap_append) [.word .dot] ((pathSegments name).map fun s => [.segment s])
  rw [textOf, path, parts, List.map_map, quoteName]
  simp [Function.comp_def, Token.chars, Word.text]

end RequestQuery.Sql
