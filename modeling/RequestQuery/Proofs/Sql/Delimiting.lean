/-
# Where a quoted name ends

An identifier of a text is a path: segments in double quotes with single dots between them, and a
quote that belongs to a segment is written twice (`Identifier`).  `readIdentifier` takes one off the
front of a text without knowing where it was meant to end.  It takes all that it can: after a quote
it looks for a second one, and after a segment for a dot.

So it stops at the end of an identifier if the text there starts with neither of the two
(`Detached`), and there is no other way to take an identifier off such a text
(`Identifier.unique`).  The quoted form of a name is an identifier whatever the name is, the empty
one and those made of quotes and dots included.  It ends where it was meant to end, and the name
can be had back from it (`quoteName_delimited`).  So are the columns of a statement
(`Column.identifier_tokens`), where the name of a source is one segment with all its dots.
-/
import RequestQuery.Proofs.Sql.Quoting

namespace RequestQuery.Sql

set_option autoImplicit false

/-! ## The grammar -/

/-- What stands between the quotes of a segment, and what it means: no quote is alone. -/
inductive Enclosed : List Char → List Char → Prop where
  | nil : Enclosed [] []
  | pair {text name : List Char} (inner : Enclosed text name) :
      Enclosed ('"' :: '"' :: text) ('"' :: name)
  | plain {c : Char} {text name : List Char} (notQuote : c ≠ '"') (inner : Enclosed text name) :
      Enclosed (c :: text) (c :: name)

/-- Quoted segments with single dots between them. -/
inductive Identifier : List Char → List String → Prop where
  | single {text : List Char} {segment : String} (enclosed : Enclosed text segment.toList) :
      Identifier ('"' :: text ++ ['"']) [segment]
  | dotted {text more : List Char} {segment : String} {segments : List String}
      (enclosed : Enclosed text segment.toList) (others : Identifier more segments) :
      Identifier ('"' :: text ++ '"' :: '.' :: more) (segment :: segments)

/-- A text into which an identifier before it does not go on. -/
def Detached (rest : List Char) : Prop :=
  ∀ c ∈ rest.head?, c ≠ '"' ∧ c ≠ '.'

instance (rest : List Char) : Decidable (Detached rest) :=
  Option.decidableForallMem rest.head?

theorem detached_nil : Detached [] :=
  fun _ none => nomatch none

/-! ## Segments -/

theorem enclosed_doubleQuotes (name : List Char) : Enclosed (doubleQuotes name) name := by
  induction name with
  | nil => exact .nil
  | cons c name ih =>
      rw [doubleQuotes]
      split
      · rename_i quote
        subst quote
        exact .pair ih
      · rename_i notQuote
        exact .plain notQuote ih

/-- A segment has one spelling. -/
theorem Enclosed.eq_doubleQuotes {text name : List Char} (enclosed : Enclosed text name) :
    text = doubleQuotes name := by
  induction enclosed with
  | nil => rfl
  | pair _ ih => rw [doubleQuotes, if_pos rfl, ih]
  | plain notQuote _ ih => rw [doubleQuotes, if_neg notQuote, ih]

/-- What `unquote` takes off is what the quotes enclose, up to the first quote that has no second
one after it. -/
theorem unquote_eq_some_iff {cs name rest : List Char} :
    unquote cs = some (name, rest) ↔
      ∃ text, Enclosed text name ∧ rest.head? ≠ some '"' ∧ cs = text ++ '"' :: rest := by
  constructor
  · intro found
    fun_induction unquote cs generalizing name with
    | case1 => cases found
    | case2 cs ih =>
        obtain ⟨⟨inner, _⟩, taken, same⟩ := Option.map_eq_some_iff.1 found
        cases same
        obtain ⟨text, enclosed, alone, rfl⟩ := ih taken
        exact ⟨'"' :: '"' :: text, .pair enclosed, alone, rfl⟩
    | case3 cs notPair =>
        cases found
        refine ⟨[], .nil, ?_, rfl⟩
        intro second
        obtain ⟨more, rfl⟩ := List.head?_eq_some_iff.1 second
        exact notPair more rfl
    | case4 c cs _ notQuote ih =>
        obtain ⟨⟨inner, _⟩, taken, same⟩ := Option.map_eq_some_iff.1 found
        cases same
        obtain ⟨text, enclosed, alone, rfl⟩ := ih taken
        exact ⟨c :: text, .plain notQuote enclosed, alone, rfl⟩
  · rintro ⟨text, enclosed, alone, rfl⟩
    rw [enclosed.eq_doubleQuotes]
    exact unquote_doubleQuotes name alone

/-! ## The reader -/

/-- The segments of the identifier at the front of a text, and what follows it.  A dot after a
segment announces another one. -/
def readIdentifier : List Char → Option (List String × List Char)
  | '"' :: cs =>
      match _found : unquote cs with
      | none => none
      | some (name, '.' :: more) =>
          (readIdentifier more).map fun part => (String.ofList name :: part.1, part.2)
      | some (name, rest) => some ([String.ofList name], rest)
  | _ => none
termination_by cs => cs.length
decreasing_by
  have shorter : ('.' :: more).length ≤ cs.length := unquote_length _found
  simp only [List.length_cons] at shorter ⊢
  omega

theorem readIdentifier_single {cs name rest : List Char} (found : unquote cs = some (name, rest))
    (noDot : rest.head? ≠ some '.') :
    readIdentifier ('"' :: cs) = some ([String.ofList name], rest) := by
  rw [readIdentifier]
  split
  · rename_i none
    rw [found] at none
    cases none
  · rename_i dotted
    rw [found] at dotted
    cases dotted
    exact absurd rfl noDot
  · rename_i last
    rw [found] at last
    cases last
    rfl

theorem readIdentifier_dotted {cs name more : List Char}
    (found : unquote cs = some (name, '.' :: more)) :
    readIdentifier ('"' :: cs) =
      (readIdentifier more).map fun part => (String.ofList name :: part.1, part.2) := by
  rw [readIdentifier]
  split
  · rename_i none
    rw [found] at none
    cases none
  · rename_i dotted
    rw [found] at dotted
    cases dotted
    rfl
  · rename_i noDot last
    rw [found] at last
    cases last
    exact absurd rfl (noDot _)

/-- An identifier is taken off a text as a whole. -/
theorem readIdentifier_append {text rest : List Char} {segments : List String}
    (identifier : Identifier text segments) (detached : Detached rest) :
    readIdentifier (text ++ rest) = some (segments, rest) := by
  have noQuote : rest.head? ≠ some '"' := fun quote => (detached '"' quote).1 rfl
  have noDot : rest.head? ≠ some '.' := fun dot => (detached '.' dot).2 rfl
  induction identifier with
  | @single text segment enclosed =>
      have found : unquote (text ++ '"' :: rest) = some (segment.toList, rest) :=
        unquote_eq_some_iff.2 ⟨text, enclosed, noQuote, rfl⟩
      have read := readIdentifier_single found noDot
      rw [String.ofList_toList] at read
      simpa using read
  | @dotted text more segment segments enclosed others ih =>
      have found : unquote (text ++ '"' :: '.' :: (more ++ rest)) =
          some (segment.toList, '.' :: (more ++ rest)) :=
        unquote_eq_some_iff.2 ⟨text, enclosed, by simp, rfl⟩
      have read := readIdentifier_dotted found
      rw [ih, Option.map_some, String.ofList_toList] at read
      simpa using read

/-- **The reader finds what the grammar says**, and stops where the identifier cannot go on. -/
theorem readIdentifier_eq_some_iff {cs rest : List Char} {segments : List String} :
    readIdentifier cs = some (segments, rest) ↔
      ∃ text, Identifier text segments ∧ Detached rest ∧ cs = text ++ rest := by
  constructor
  · intro read
    fun_induction readIdentifier cs generalizing segments with
    | case1 => cases read
    | case2 cs name more found ih =>
        obtain ⟨⟨others, _⟩, taken, same⟩ := Option.map_eq_some_iff.1 read
        cases same
        obtain ⟨text, enclosed, -, rfl⟩ := unquote_eq_some_iff.1 found
        obtain ⟨next, identifier, detached, rfl⟩ := ih taken
        rw [← String.toList_ofList (l := name)] at enclosed
        exact ⟨_, .dotted enclosed identifier, detached, by simp⟩
    | case3 cs name last noDot found =>
        cases read
        obtain ⟨text, enclosed, noQuote, rfl⟩ := unquote_eq_some_iff.1 found
        rw [← String.toList_ofList (l := name)] at enclosed
        refine ⟨_, .single enclosed, ?_, by simp⟩
        intro c first
        obtain ⟨more, rfl⟩ := List.head?_eq_some_iff.1 first
        constructor
        · rintro rfl
          exact noQuote rfl
        · rintro rfl
          exact noDot more rfl
    | case4 => cases read
  · rintro ⟨text, identifier, detached, rfl⟩
    exact readIdentifier_append identifier detached

/-- An identifier is told from a detached text after it in one way only. -/
theorem Identifier.unique {text other rest after : List Char} {segments others : List String}
    (first : Identifier text segments) (second : Identifier other others)
    (detached : Detached rest) (otherDetached : Detached after)
    (same : text ++ rest = other ++ after) :
    text = other ∧ segments = others ∧ rest = after := by
  have read := readIdentifier_append first detached
  rw [same, readIdentifier_append second otherDetached] at read
  cases read
  exact ⟨List.append_cancel_right same, rfl, rfl⟩

/-! ## Quoted names -/

theorem identifier_segments {segments : List String} (nonempty : segments ≠ []) :
    Identifier (List.intercalate ['.'] (segments.map fun s => segmentChars s.toList)) segments := by
  induction segments with
  | nil => exact absurd rfl nonempty
  | cons segment segments ih =>
      have enclosed := enclosed_doubleQuotes segment.toList
      cases segments with
      | nil =>
          rw [List.map_singleton, List.intercalate_singleton]
          exact .single enclosed
      | cons next segments =>
          have others := ih (List.cons_ne_nil next segments)
          simp only [List.map_cons, List.intercalate_cons_cons] at others ⊢
          simpa [segmentChars] using Identifier.dotted enclosed others

theorem identifier_quoteName (name : String) :
    Identifier (quoteName name).toList (pathSegments name) := by
  rw [quoteName, String.toList_ofList]
  exact identifier_segments (pathSegments_ne_nil name)

/-- What a statement writes for a column is an identifier of the column's segments. -/
theorem Column.identifier_tokens (column : Column) :
    Identifier (textOf column.tokens).toList column.segments := by
  cases column with
  | bare name =>
      show Identifier (textOf (path name)).toList (pathSegments name)
      rw [textOf_path]
      exact identifier_quoteName name
  | qualified source name =>
      have two := identifier_segments (List.cons_ne_nil source [name])
      simpa [tokens, segments, textOf, Token.chars, Word.text] using two

/-- So a column of a statement is told from what follows it, that of a source too. -/
theorem Column.readIdentifier_tokens (column : Column) {rest : List Char}
    (detached : Detached rest) :
    readIdentifier ((textOf column.tokens).toList ++ rest) = some (column.segments, rest) :=
  readIdentifier_append column.identifier_tokens detached

/-- Names with the same quoted form before detached texts are the same name. -/
theorem eq_of_quoteName_append {name other : String} {rest after : List Char}
    (detached : Detached rest) (otherDetached : Detached after)
    (same : (quoteName name).toList ++ rest = (quoteName other).toList ++ after) : name = other := by
  obtain ⟨-, segments, -⟩ := (identifier_quoteName name).unique (identifier_quoteName other)
    detached otherDetached same
  rw [← intercalate_pathSegments name, segments, intercalate_pathSegments]

/-- **A quoted name ends where it was meant to end, and gives the name back.**  The reader takes off
a text what is an identifier before a detached text, and nothing else.  So it takes exactly the
quoted name off, whatever detached text comes after it, and the segments that it finds are the name
with dots between them.  There is no other identifier at the front of that text with a detached text
after it; in particular a quoted name does not end early.  And different names have different quoted
forms. -/
theorem quoteName_delimited :
    (∀ cs segments rest, readIdentifier cs = some (segments, rest) ↔
      ∃ text, Identifier text segments ∧ Detached rest ∧ cs = text ++ rest) ∧
    (∀ name rest, Detached rest →
      readIdentifier ((quoteName name).toList ++ rest) = some (pathSegments name, rest)) ∧
    (∀ name, String.intercalate "." (pathSegments name) = name) ∧
    (∀ name rest text segments after, Detached rest → Identifier text segments → Detached after →
      text ++ after = (quoteName name).toList ++ rest →
        text = (quoteName name).toList ∧ segments = pathSegments name ∧ after = rest) ∧
    Function.Injective quoteName := by
  refine ⟨fun _ _ _ => readIdentifier_eq_some_iff, ?reads, intercalate_pathSegments, ?only,
    ?injective⟩
  case reads =>
    intro name rest detached
    exact readIdentifier_append (identifier_quoteName name) detached
  case only =>
    intro name rest text segments after detached identifier otherDetached same
    exact identifier.unique (identifier_quoteName name) otherDetached detached same
  case injective =>
    intro name other same
    apply eq_of_quoteName_append detached_nil detached_nil
    rw [same]

/-- A name of a quote and a dot, with more of a statement after it.  Its first segment alone is an
identifier too, but then what is left goes on with a dot. -/
theorem quoteName_delimited_quote_dot :
    let quoted := "\"\"\"\".\"\"".toList
    let rest := " IS NULL".toList
    let early := "\"\"\"\"".toList
    let left := ".\"\" IS NULL".toList
    (quoteName "\".").toList = quoted ∧ Detached rest ∧
      readIdentifier (quoted ++ rest) = some (["\"", ""], rest) ∧
      String.intercalate "." ["\"", ""] = "\"." ∧
      Identifier early ["\""] ∧ early ++ left = quoted ++ rest ∧ ¬ Detached left ∧
      quoteName "\"" ≠ quoteName "\"." := by
  intro quoted rest early left
  obtain ⟨-, reads, joined, only, injective⟩ := quoteName_delimited
  have text : (quoteName "\".").toList = quoted := by decide +kernel
  have segments : pathSegments "\"." = ["\"", ""] := by decide +kernel
  have detached : Detached rest := by decide +kernel
  have read := reads "\"." rest detached
  have whole := joined "\"."
  rw [text, segments] at read
  rw [segments] at whole
  have first : Identifier early ["\""] := identifier_segments (List.cons_ne_nil "\"" [])
  have same : early ++ left = quoted ++ rest := by decide +kernel
  have attached : ¬ Detached left := by
    intro leftDetached
    obtain ⟨ends, -⟩ := only "\"." rest early ["\""] left detached first leftDetached
      (text ▸ same)
    exact absurd (ends.trans text) (by decide +kernel)
  exact ⟨text, detached, read, whole, first, same, attached,
    fun equal => absurd (injective equal) (by decide)⟩

end RequestQuery.Sql
