/-
# Reading a text back into tokens

`lex` cuts a text of SQL into lexemes without knowing who wrote it: a double quote opens an
identifier that ends at the first double quote not followed by another, a question mark outside of
identifiers is a placeholder, and what else there is are blanks and words.  `readTokens` goes on
from there: a word has to belong to the vocabulary, and the placeholders take their values from a
list, the first one the first value, until nothing is left on either side.

Nothing is lost on the way to text.  Tokens that do not run together (`Apart`) are read back exactly
(`readTokens_textOf`), and the tokens of a statement never run together, whatever names and values
stand in it (`Statement.spaced_tokens`).
-/
import Mathlib.Data.List.Chain
import RequestQuery.Sql.Statement

namespace RequestQuery.Sql

set_option autoImplicit false

/-! ## Lexemes -/

inductive Lexeme where
  | blank
  | word (text : String)
  /-- What stands between quotes, with its doubled quotes undone. -/
  | identifier (name : String)
  | placeholder
  deriving DecidableEq

namespace Lexeme

def word? : Lexeme → Option String
  | .word text => some text
  | _ => none

def name? : Lexeme → Option String
  | .identifier name => some name
  | _ => none

end Lexeme

/-! ## The lexer -/

/-- The characters of one word go on: letters, digits and underscores, or signs of comparison. -/
def continues (c d : Char) : Bool :=
  let isLetter (c : Char) := c.isAlphanum || c = '_'
  let isSign (c : Char) := c = '<' || c = '=' || c = '>'
  isLetter c && isLetter d || isSign c && isSign d

/-- The rest of a word after its character `c`, and what follows the word. -/
def wordAfter (c : Char) : List Char → List Char × List Char
  | [] => ([], [])
  | d :: ds =>
      if continues c d then
        let (word, rest) := wordAfter d ds
        (d :: word, rest)
      else ([], d :: ds)

/-- The rest of an identifier after its opening quote, and what follows the closing one. -/
def unquote : List Char → Option (List Char × List Char)
  | [] => none
  | '"' :: '"' :: cs => (unquote cs).map fun part => ('"' :: part.1, part.2)
  | '"' :: cs => some ([], cs)
  | c :: cs => (unquote cs).map fun part => (c :: part.1, part.2)

/-- The lexeme that starts with `c`, and what follows it. -/
def lexeme? (c : Char) (cs : List Char) : Option (Lexeme × List Char) :=
  if c = ' ' then some (.blank, cs)
  else if c = '?' then some (.placeholder, cs)
  else if c = '"' then
    (unquote cs).map fun part => (.identifier (String.ofList part.1), part.2)
  else
    let (word, rest) := wordAfter c cs
    some (.word (String.ofList (c :: word)), rest)

theorem wordAfter_length (c : Char) (cs : List Char) : (wordAfter c cs).2.length ≤ cs.length := by
  induction cs generalizing c with
  | nil => exact le_rfl
  | cons d ds ih =>
      simp only [wordAfter]
      split
      · exact Nat.le_succ_of_le (ih d)
      · exact le_rfl

theorem unquote_length {cs : List Char} {part : List Char × List Char}
    (h : unquote cs = some part) : part.2.length ≤ cs.length := by
  fun_induction unquote cs generalizing part with
  | case1 => cases h
  | case2 cs ih =>
      obtain ⟨inner, hinner, rfl⟩ := Option.map_eq_some_iff.1 h
      have := ih hinner
      simp only [List.length_cons]
      omega
  | case3 cs => cases h; simp
  | case4 c cs _ _ ih =>
      obtain ⟨inner, hinner, rfl⟩ := Option.map_eq_some_iff.1 h
      have := ih hinner
      simp only [List.length_cons]
      omega

theorem lexeme?_length {c : Char} {cs : List Char} {found : Lexeme × List Char}
    (h : lexeme? c cs = some found) : found.2.length ≤ cs.length := by
  unfold lexeme? at h
  split at h
  · cases h; exact le_rfl
  · split at h
    · cases h; exact le_rfl
    · split at h
      · obtain ⟨part, hpart, rfl⟩ := Option.map_eq_some_iff.1 h
        exact unquote_length hpart
      · cases h; exact wordAfter_length c cs

/-- The lexemes of a text, unless it ends inside an identifier. -/
def lex : List Char → Option (List Lexeme)
  | [] => some []
  | c :: cs =>
      match _found : lexeme? c cs with
      | none => none
      | some (lexeme, rest) => (lex rest).map (lexeme :: ·)
termination_by cs => cs.length
decreasing_by
  have shorter : rest.length ≤ cs.length := lexeme?_length _found
  simp only [List.length_cons]
  omega

/-! ## From lexemes to tokens -/

namespace Word

def all : List Word :=
  [.SELECT, .FROM, .WHERE, .AND, .NOT, .EXISTS, .AS, .IS, .NULL, .IN, .GROUP, .ORDER, .BY, .ASC,
   .DESC, .LIMIT, .ROW_NUMBER, .OVER, .PARTITION, .INSERT, .INTO, .DEFAULT, .VALUES, .UPDATE,
   .SET, .DELETE, .one, .star, .comma, .dot, .opening, .closing, .equal, .less, .greater, .atMost]

/-- The texts that stand outside of quotes. -/
def vocabulary : List String :=
  all.map text

def ofText? (text : String) : Option Word :=
  all.find? (·.text = text)

end Word

/-- Tokens for lexemes; each placeholder takes the next value, and no value is left over. -/
def tokensOf : List Lexeme → List Parameter → Option (List Token)
  | [], [] => some []
  | [], _ :: _ => none
  | .blank :: ls, ps => (tokensOf ls ps).map (.space :: ·)
  | .word text :: ls, ps =>
      (Word.ofText? text).bind fun w => (tokensOf ls ps).map (.word w :: ·)
  | .identifier name :: ls, ps => (tokensOf ls ps).map (.segment name :: ·)
  | .placeholder :: _, [] => none
  | .placeholder :: ls, p :: ps => (tokensOf ls ps).map (.value p :: ·)

/-- The tokens of a text whose placeholders stand for these values. -/
def readTokens (sql : String) (values : List Parameter) : Option (List Token) :=
  (lex sql.toList).bind fun lexemes => tokensOf lexemes values

/-! ## Tokens that do not run together -/

namespace Token

def lexeme : Token → Lexeme
  | .word w => .word w.text
  | .space => .blank
  | .segment name => .identifier name
  | .value _ => .placeholder

/-- A text after the token leaves it as it is. -/
def EndsBefore (t : Token) (rest : List Char) : Prop :=
  match t with
  | .word w => ∀ c ∈ w.text.toList.getLast?, ∀ d ∈ rest.head?, continues c d = false
  | .segment _ => rest.head? ≠ some '"'
  | .space | .value _ => True

/-- The second token can follow the first one without a blank between them. -/
def Apart (t u : Token) : Prop :=
  t.EndsBefore u.chars

end Token

theorem wordAfter_append {c : Char} {cs rest : List Char}
    (whole : (c :: cs).IsChain fun a b => continues a b = true)
    (stop : ∀ a ∈ (c :: cs).getLast?, ∀ d ∈ rest.head?, continues a d = false) :
    wordAfter c (cs ++ rest) = (cs, rest) := by
  induction cs generalizing c with
  | nil =>
      cases rest with
      | nil => rfl
      | cons d ds =>
          have : continues c d = false := stop c rfl d rfl
          simp [wordAfter, this]
  | cons a cs ih =>
      rw [List.isChain_cons_cons] at whole
      rw [List.cons_append, wordAfter, if_pos whole.1, ih whole.2 (by simpa using stop)]

theorem unquote_doubleQuotes (cs : List Char) {rest : List Char} (stop : rest.head? ≠ some '"') :
    unquote (doubleQuotes cs ++ '"' :: rest) = some (cs, rest) := by
  induction cs with
  | nil =>
      cases rest with
      | nil => rfl
      | cons d ds =>
          have : d ≠ '"' := by simpa using stop
          simp [doubleQuotes, unquote, this]
  | cons c cs ih =>
      by_cases h : c = '"'
      · subst h
        simp [doubleQuotes, unquote, ih]
      · simp [doubleQuotes, unquote, h, ih]

/-- A word is one run of characters that go on, and starts like nothing else. -/
theorem Word.text_run (w : Word) :
    ∃ c cs, w.text.toList = c :: cs ∧ (c :: cs).IsChain (fun a b => continues a b = true) ∧
      c ≠ ' ' ∧ c ≠ '?' ∧ c ≠ '"' := by
  cases w <;> exact ⟨_, _, rfl, by decide, by decide, by decide, by decide⟩

theorem lexeme?_chars (t : Token) {rest : List Char} (stop : t.EndsBefore rest) :
    ∃ c cs, t.chars = c :: cs ∧ lexeme? c (cs ++ rest) = some (t.lexeme, rest) := by
  cases t with
  | word w =>
      obtain ⟨c, cs, text, whole, notBlank, notPlace, notQuote⟩ := w.text_run
      refine ⟨c, cs, text, ?_⟩
      simp only [Token.EndsBefore, text] at stop
      simp only [lexeme?, if_neg notBlank, if_neg notPlace, if_neg notQuote,
        wordAfter_append whole stop, ← text, String.ofList_toList, Token.lexeme]
  | space => exact ⟨' ', [], rfl, rfl⟩
  | segment name =>
      refine ⟨'"', doubleQuotes name.toList ++ ['"'], rfl, ?_⟩
      rw [List.append_assoc, List.singleton_append]
      simp [lexeme?, unquote_doubleQuotes name.toList stop, Token.lexeme, String.ofList_toList]
  | value p => exact ⟨'?', [], rfl, rfl⟩

theorem head?_flatMap_chars (t : Token) (ts : List Token) :
    ((t :: ts).flatMap Token.chars).head? = t.chars.head? := by
  have nonempty : t.chars ≠ [] := by
    cases t with
    | word w =>
        obtain ⟨c, cs, text, -⟩ := w.text_run
        simp [Token.chars, text]
    | space | segment _ | value _ => exact List.cons_ne_nil _ _
  rw [List.flatMap_cons, List.head?_append_of_ne_nil _ nonempty]

theorem Token.EndsBefore.congr {t : Token} {rest rest' : List Char} (stop : t.EndsBefore rest)
    (same : rest'.head? = rest.head?) : t.EndsBefore rest' := by
  cases t <;> simp_all [Token.EndsBefore]

/-- Tokens that do not run together are lexed one by one. -/
theorem lex_chars {ts : List Token} (apart : ts.IsChain Token.Apart) :
    lex (ts.flatMap Token.chars) = some (ts.map Token.lexeme) := by
  induction ts with
  | nil => rw [List.flatMap_nil, lex, List.map_nil]
  | cons t ts ih =>
      have stop : t.EndsBefore (ts.flatMap Token.chars) := by
        cases ts with
        | nil => cases t <;> simp [Token.EndsBefore]
        | cons u us =>
            rw [List.isChain_cons_cons] at apart
            exact apart.1.congr (head?_flatMap_chars u us)
      obtain ⟨c, cs, chars, found⟩ := lexeme?_chars t stop
      rw [List.flatMap_cons, chars, List.cons_append, lex]
      split
      · rename_i none; rw [found] at none; cases none
      · rename_i lexeme rest some
        rw [found] at some
        cases some
        rw [ih apart.of_cons]
        rfl

theorem Word.ofText?_text (w : Word) : Word.ofText? w.text = some w := by
  cases w <;> rfl

/-- The lexemes and the values of some tokens are these tokens again. -/
theorem tokensOf_lexemes (ts : List Token) :
    tokensOf (ts.map Token.lexeme) (valuesOf ts) = some ts := by
  induction ts with
  | nil => rfl
  | cons t ts ih =>
      cases t with
      | word w =>
          simp only [List.map_cons, Token.lexeme, tokensOf, Word.ofText?_text, Option.bind_some]
          exact congrArg (Option.map (.word w :: ·)) ih
      | space => exact congrArg (Option.map (.space :: ·)) ih
      | segment name => exact congrArg (Option.map (.segment name :: ·)) ih
      | value p => exact congrArg (Option.map (.value p :: ·)) ih

/-- **Text and values together are the tokens.** -/
theorem readTokens_textOf {ts : List Token} (apart : ts.IsChain Token.Apart) :
    readTokens (textOf ts) (valuesOf ts) = some ts := by
  rw [readTokens, textOf, String.toList_ofList, lex_chars apart]
  exact tokensOf_lexemes ts

/-! ## The tokens of a statement -/

namespace Token

/-- A token that nothing runs into and that runs into nothing. -/
def Loose (s : Token) : Prop :=
  (∀ t, Apart t s) ∧ ∀ t, Apart s t

theorem loose_space : Loose .space := by
  refine ⟨fun t => ?_, fun _ => trivial⟩
  cases t <;> simp [Apart, EndsBefore, chars, continues]

theorem loose_punctuation {w : Word} (h : w ∈ [Word.comma, .dot, .opening, .closing]) :
    Loose (.word w) := by
  simp only [List.mem_cons, List.not_mem_nil, or_false] at h
  refine ⟨fun t => ?_, fun t => ?_⟩
  · rcases h with rfl | rfl | rfl | rfl <;>
      cases t <;> simp [Apart, EndsBefore, chars, continues, Word.text]
  · rcases h with rfl | rfl | rfl | rfl <;> simp [Apart, EndsBefore, continues, Word.text]

end Token

/-- No token runs together with the next one. -/
def Spaced (ts : List Token) : Prop :=
  ts.IsChain Token.Apart

namespace Spaced

theorem nil : Spaced [] := List.isChain_nil

theorem single (t : Token) : Spaced [t] := List.isChain_singleton t

theorem cons_loose {s : Token} {ts : List Token} (loose : s.Loose) (h : Spaced ts) :
    Spaced (s :: ts) :=
  List.isChain_cons.2 ⟨fun t _ => loose.2 t, h⟩

theorem append_loose {s : Token} {ts us : List Token} (loose : s.Loose) (ht : Spaced ts)
    (hu : Spaced us) : Spaced (ts ++ s :: us) := by
  refine List.isChain_append.2 ⟨ht, cons_loose loose hu, fun t _ u hu => ?_⟩
  cases hu
  exact loose.1 t

theorem intercalate {separator : List Token} (loose : ∀ s ∈ separator, s.Loose)
    (nonempty : separator ≠ []) {parts : List (List Token)} (h : ∀ part ∈ parts, Spaced part) :
    Spaced (List.intercalate separator parts) := by
  obtain ⟨s, rest, rfl⟩ := List.exists_cons_of_ne_nil nonempty
  have before : ∀ (more : List Token) {ts : List Token}, (∀ s ∈ more, s.Loose) → Spaced ts →
      Spaced (more ++ ts) := by
    intro more ts looseMore spaced
    induction more with
    | nil => exact spaced
    | cons s more ih =>
        rw [List.forall_mem_cons] at looseMore
        exact cons_loose looseMore.1 (ih looseMore.2)
  rw [List.forall_mem_cons] at loose
  induction parts with
  | nil => exact nil
  | cons part parts ih =>
      rw [List.forall_mem_cons] at h
      cases parts with
      | nil => rw [List.intercalate_singleton]; exact h.1
      | cons next parts =>
          rw [List.intercalate_cons_cons, List.append_assoc, List.cons_append]
          exact append_loose loose.1 h.1 (before rest loose.2 (ih h.2))

theorem phrase {parts : List (List Token)} (h : ∀ part ∈ parts, Spaced part) :
    Spaced (phrase parts) :=
  intercalate (by simpa using Token.loose_space) (List.cons_ne_nil _ _) h

theorem listed {items : List (List Token)} (h : ∀ item ∈ items, Spaced item) :
    Spaced (listed items) := by
  refine intercalate ?_ (List.cons_ne_nil _ _) h
  simpa using ⟨Token.loose_punctuation (by simp), Token.loose_space⟩

theorem listed_map {α : Type} (f : α → List Token) (h : ∀ a, Spaced (f a)) (items : List α) :
    Spaced (Sql.listed (items.map f)) := by
  refine listed fun item mem => ?_
  obtain ⟨a, -, rfl⟩ := List.mem_map.1 mem
  exact h a

theorem parenthesized {ts : List Token} (h : Spaced ts) : Spaced (parenthesized ts) :=
  cons_loose (Token.loose_punctuation (by simp))
    (append_loose (Token.loose_punctuation (by simp)) h nil)

theorem words (ws : List Word) : Spaced (words ws) :=
  phrase fun part h => by
    obtain ⟨w, -, rfl⟩ := List.mem_map.1 h
    exact single _

theorem path (name : String) : Spaced (path name) := by
  refine intercalate ?_ (List.cons_ne_nil _ _) fun part h => ?_
  · simpa using Token.loose_punctuation (by simp)
  · obtain ⟨segment, -, rfl⟩ := List.mem_map.1 h
    exact single _

end Spaced

attribute [simp] Spaced.single Spaced.words Spaced.path

@[simp] theorem Column.spaced_tokens (column : Column) : Spaced column.tokens := by
  cases column with
  | bare name => exact Spaced.path name
  | qualified source name =>
      exact (Spaced.single _).append_loose (Token.loose_punctuation (by simp)) (Spaced.single _)

namespace Condition

mutual

theorem spaced_tokensWithin (inConjunction : Bool) :
    ∀ c : Condition, Spaced (c.tokensWithin inConjunction)
  | .always => Spaced.words _
  | .isNull column => Spaced.phrase (by simp)
  | .compares column comparison value => Spaced.phrase (by simp)
  | .sameAs left right => Spaced.phrase (by simp)
  | .among column values => by
      have listing := (Spaced.listed_map (fun v => [.value v]) (by simp) values).parenthesized
      exact Spaced.phrase (by simp [listing])
  | .all members => by
      have inner := spaced_conjunction members
      simp only [tokensWithin]
      split
      · exact inner.parenthesized
      · exact inner
  | .negation c => by
      have inner := (spaced_tokensWithin false c).parenthesized
      exact Spaced.phrase (by simp [inner])
  | .hasRecord negated table knownAs members => by
      have inner := spaced_conjunction members
      have subquery : Spaced
          (phrase
            [words [.SELECT, .one, .FROM], path table, words [.AS], path knownAs,
             words [.WHERE], conjunction members]) :=
        Spaced.phrase (by simp [inner])
      exact Spaced.phrase (by simp [subquery.parenthesized])

theorem spaced_conjunction : ∀ cs : List Condition, Spaced (conjunction cs)
  | [] => Spaced.nil
  | [c] => spaced_tokensWithin true c
  | c :: d :: cs => by
      have first := spaced_tokensWithin true c
      have others := spaced_conjunction (d :: cs)
      exact Spaced.phrase (by simp [first, others])

end

end Condition

theorem spaced_projectionTokens (projection : Option (List String)) :
    Spaced (projectionTokens projection) := by
  cases projection with
  | none => exact Spaced.words _
  | some names => exact Spaced.listed_map path Spaced.path names

theorem spaced_whereClause (conditions : List Condition) :
    ∀ part ∈ whereClause conditions, Spaced part := by
  unfold whereClause
  split
  · simp
  · simp [Condition.spaced_conjunction]

theorem spaced_groupByClause (keys : List String) :
    ∀ part ∈ groupByClause keys, Spaced part := by
  unfold groupByClause
  split
  · simp
  · simp [Spaced.listed_map path Spaced.path]

theorem spaced_orderByClause (keys : List OrderKey) :
    ∀ part ∈ orderByClause keys, Spaced part := by
  have sortKeys := Spaced.listed_map
    (fun key : OrderKey => phrase [path key.column, words [directionWord key.order]])
    (fun key => Spaced.phrase (by simp)) keys
  unfold orderByClause
  split
  · simp
  · simp [sortKeys]

namespace RankedLoad

theorem spaced_rankedTokens (load : RankedLoad) : Spaced load.rankedTokens := by
  have star : Spaced (path load.table ++ [.word .dot, .word .star]) :=
    (Spaced.path _).append_loose (Token.loose_punctuation (by simp)) (Spaced.single _)
  have call : Spaced [.word .ROW_NUMBER, .word .opening, .word .closing] :=
    (Spaced.single _).append_loose (Token.loose_punctuation (by simp)) (Spaced.single _)
  have window : Spaced
      (parenthesized (phrase
        [words [.PARTITION, .BY], load.partition.tokens, words [.ORDER, .BY], load.order.tokens,
         words [directionWord load.direction]])) :=
    (Spaced.phrase (by simp)).parenthesized
  refine Spaced.phrase (List.forall_mem_append.2 ⟨?_, spaced_whereClause load.conditions⟩)
  simp only [List.forall_mem_cons, List.not_mem_nil, false_imp_iff, implies_true, and_true]
  refine ⟨Spaced.words _, Spaced.listed ?columns, Spaced.words _, Spaced.path _⟩
  case columns =>
    exact List.forall_mem_cons.2
      ⟨star, List.forall_mem_singleton.2 (Spaced.phrase (by simp [call, window]))⟩

theorem spaced_limitClause (load : RankedLoad) : ∀ part ∈ load.limitClause, Spaced part := by
  unfold limitClause
  split <;> simp

theorem spaced_tokens (load : RankedLoad) : Spaced load.tokens := by
  have ranked := load.spaced_rankedTokens.parenthesized
  apply Spaced.phrase
  simp only [List.forall_mem_append]
  exact ⟨⟨by simp [ranked], load.spaced_limitClause⟩, by simp⟩

end RankedLoad

namespace Statement

theorem spaced_insertedTokens (entries : Ordered Parameter) :
    ∀ part ∈ insertedTokens entries, Spaced part := by
  have names := Spaced.listed_map (fun entry => path entry.1) (by simp) entries
  have values := Spaced.listed_map (fun entry => [.value entry.2]) (by simp) entries
  unfold insertedTokens
  split
  · simp
  · simp [names.parenthesized, values.parenthesized]

/-- **No token of a statement runs together with the next one**, whatever its names and values
are. -/
theorem spaced_tokens (statement : Statement) : Spaced statement.tokens := by
  cases statement with
  | select projection table conditions groupBy orderBy =>
      have columns := spaced_projectionTokens projection
      apply Spaced.phrase
      simp only [List.forall_mem_append]
      exact ⟨⟨⟨by simp [columns], spaced_whereClause conditions⟩, spaced_groupByClause groupBy⟩,
        spaced_orderByClause orderBy⟩
  | rankedLoad load => exact load.spaced_tokens
  | lookup table conditions =>
      apply Spaced.phrase
      simp only [List.forall_mem_append]
      exact ⟨⟨by simp, spaced_whereClause conditions⟩, by simp⟩
  | insert table entries =>
      apply Spaced.phrase
      simp only [List.forall_mem_append]
      exact ⟨by simp, spaced_insertedTokens entries⟩
  | update table entries conditions =>
      have assignments := Spaced.listed_map
        (fun entry => phrase [path entry.1, words [.equal], [.value entry.2]])
        (fun entry => Spaced.phrase (by simp)) entries
      apply Spaced.phrase
      simp only [List.forall_mem_append]
      exact ⟨by simp [assignments], spaced_whereClause conditions⟩
  | delete table conditions =>
      apply Spaced.phrase
      simp only [List.forall_mem_append]
      exact ⟨by simp, spaced_whereClause conditions⟩

end Statement

end RequestQuery.Sql
