/-
# Predicates are read back from their text

Predicates are built from plain leaves with `and`, `andThen` and `not` (`Predicate.Built`).  Such a
predicate is `none`, or it is tight: every conjunction in it has two members or more, and `none`
stands nowhere in it (`tight_of_built`).  This is what its text depends on.  A conjunction is put in
parentheses only inside another one and under NOT, so an empty one would have no text, and one with
a single member would be read as this member.

The text of a tight predicate is read with the grammar of conditions, where NOT binds tighter than
AND and parentheses group, and the columns are then taken for columns of the source it was written
for.  What is found is the same tree (`Predicate.read_of_tight`).  Equality with null has the text
of the question for null and is read as this question; so the tree is `settled`, and what it binds
are the values that are left in it.
-/
import RequestQuery.Proofs.Sql.Grammar
import RequestQuery.Proofs.Sql.Values

namespace RequestQuery

set_option autoImplicit false

namespace Predicate

/-! ## Predicates that are built -/

/-- A predicate made of plain leaves, with no conjunction or negation written by hand. -/
inductive Built : Predicate → Prop where
  | none : Built .none
  | equals (column : String) (value : Parameter) : Built (.equals column value)
  | less (column : String) (value : Parameter) : Built (.less column value)
  | greater (column : String) (value : Parameter) : Built (.greater column value)
  | isNull (column : String) : Built (.isNull column)
  | and {members : List Predicate} (each : ∀ p ∈ members, Built p) : Built (.and members)
  | andThen {p q : Predicate} (first : Built p) (second : Built q) : Built (p.andThen q)
  | not {p : Predicate} (inner : Built p) : Built p.not

mutual

/-- No conjunction has fewer than two members, and nothing in the predicate is `none`. -/
def Tight : Predicate → Prop
  | .none => False
  | .all members => 2 ≤ members.length ∧ AllTight members
  | .negation inner => Tight inner
  | _ => True

def AllTight : List Predicate → Prop
  | [] => True
  | p :: ps => Tight p ∧ AllTight ps

end

theorem allTight_iff {ps : List Predicate} : AllTight ps ↔ ∀ p ∈ ps, p.Tight := by
  induction ps with
  | nil => simp [AllTight]
  | cons p ps ih => simp [AllTight, ih]

theorem isNone_iff {p : Predicate} : p.isNone = true ↔ p = .none := by
  cases p <;> simp [isNone]

/-! ## Each way of building keeps predicates tight -/

theorem tight_and {members : List Predicate} (each : ∀ p ∈ members, p = .none ∨ p.Tight) :
    Predicate.and members = .none ∨ (Predicate.and members).Tight := by
  have left : ∀ p ∈ members.filter fun p => !p.isNone, p.Tight := by
    intro p kept
    obtain ⟨mem, some⟩ := List.mem_filter.1 kept
    refine (each p mem).resolve_left fun none => ?_
    rw [none] at some
    cases some
  unfold Predicate.and
  split
  · exact Or.inl rfl
  · rename_i p alone
    rw [alone] at left
    exact Or.inr (left p (List.mem_singleton_self p))
  · rename_i notEmpty notAlone
    refine Or.inr ⟨?_, allTight_iff.2 left⟩
    -- Neither of the shorter lists was met.
    rcases kept : members.filter fun p => !p.isNone with _ | ⟨p, _ | ⟨q, ps⟩⟩
    · exact absurd kept notEmpty
    · exact absurd kept (notAlone p)
    · rw [kept]
      exact Nat.le_add_left 2 ps.length

theorem tight_not {p : Predicate} (inner : p = .none ∨ p.Tight) : p.not = .none ∨ p.not.Tight := by
  unfold Predicate.not
  split
  · exact Or.inl rfl
  · rename_i some
    exact Or.inr (inner.resolve_left fun none => some (isNone_iff.2 none))

theorem tight_andThen {p q : Predicate} (first : p = .none ∨ p.Tight)
    (second : q = .none ∨ q.Tight) : p.andThen q = .none ∨ (p.andThen q).Tight := by
  unfold Predicate.andThen
  split
  · exact second
  · exact first
  · rename_i members some
    have tight := first.resolve_left Predicate.noConfusion
    have last := second.resolve_left some
    refine Or.inr ⟨?_, allTight_iff.2 fun p mem => ?_⟩
    · have long := tight.1
      rw [List.length_append]
      omega
    · rcases List.mem_append.1 mem with mem | mem
      · exact allTight_iff.1 tight.2 p mem
      · rw [List.mem_singleton.1 mem]
        exact last
  · rename_i someFirst _ someSecond
    exact Or.inr ⟨Nat.le_refl 2, first.resolve_left someFirst, second.resolve_left someSecond,
      trivial⟩

theorem tight_of_built {p : Predicate} (built : p.Built) : p = .none ∨ p.Tight := by
  induction built with
  | none => exact Or.inl rfl
  | equals | less | greater | isNull => exact Or.inr trivial
  | and _ each => exact tight_and each
  | andThen _ _ first second => exact tight_andThen first second
  | not _ inner => exact tight_not inner

/-! ## What a text says of a predicate -/

mutual

/-- Equality with null says the same as the question for null and has its text. -/
def settled : Predicate → Predicate
  | .equals column .null => .isNull column
  | .all members => .all (settledAll members)
  | .negation inner => .negation (settled inner)
  | p => p

def settledAll : List Predicate → List Predicate
  | [] => []
  | p :: ps => settled p :: settledAll ps

end

end Predicate

/-! ## Reading a predicate -/

namespace Sql

/-- The column that a path names among those of a source, or among bare ones. -/
def Column.read (source : Option String) (path : Path) : Option String :=
  match source, path with
  | none, segments =>
      some (String.ofList (List.intercalate ['.'] (segments.map String.toList)))
  | some owner, [segment, name] => if segment = owner then some name else none
  | some _, _ => none

namespace Formula

mutual

/-- The predicate about the columns of a source that a formula is. -/
def predicate? (source : Option String) : Formula → Option Predicate
  | .always => some .none
  | .isNull column => do some (.isNull (← Column.read source column))
  | .compares column .equal value => do some (.equals (← Column.read source column) value)
  | .compares column .less value => do some (.less (← Column.read source column) value)
  | .compares column .greater value => do some (.greater (← Column.read source column) value)
  | .all members => do some (.all (← predicates? source members))
  | .negation inner => do some (.negation (← predicate? source inner))
  | .sameAs _ _ | .among _ _ | .hasRecord _ _ _ => none

def predicates? (source : Option String) : List Formula → Option (List Predicate)
  | [] => some []
  | f :: fs => do some ((← predicate? source f) :: (← predicates? source fs))

end

/-- The formula that a text with these values is, from its beginning to its end. -/
def read (sql : String) (values : List Parameter) : Option Formula := do
  let ts ← readTokens sql values
  let (members, rest) ← Reading.listOf .AND (Reading.condition ts.length) (solid ts)
  if rest.isEmpty then some (.conjoined members) else none

end Formula

end Sql

/-- The predicate about the columns of a source that a text with these values is. -/
def Predicate.read (source : Option String) (sql : String) (values : List Parameter) :
    Option Predicate := do
  (← Sql.Formula.read sql values).predicate? source

/-! ## A text is read back -/

namespace Sql

theorem Column.read_segments (source : Option String) (name : String) :
    Column.read source (Column.of source name).segments = some name := by
  cases source with
  | none =>
      have whole := Text.intercalate_splitChars '.' name.toList
      simp only [Column.read, Column.of, Column.segments, pathSegments, Text.map_toList_splitOn,
        whole, String.ofList_toList]
  | some owner => simp [Column.read, Column.of, Column.segments]

/-- A condition is read back from its text and its values, if no conjunction in it is empty. -/
theorem Formula.read_tokens {c : Condition} (wellFormed : c.WellFormed) :
    Formula.read (textOf c.tokens) (valuesOf c.tokens) = some c.formula := by
  obtain ⟨nonempty, reads⟩ := Reading.readBack_members c wellFormed
  have tokens : readTokens (textOf c.tokens) (valuesOf c.tokens) = some c.tokens :=
    readTokens_textOf (Condition.spaced_tokensWithin false c)
  have text : c.tokens = Condition.conjunction c.members := Condition.tokensWithin_false c
  have bound : (solid (Condition.conjunction c.members)).length ≤ c.tokens.length := by
    rw [text]
    exact List.length_filter_le _ _
  have members := Reading.conjunction_append nonempty reads bound
    (show Reading.expect [.dot] [] = none from rfl) (show Reading.expect [.AND] [] = none from rfl)
  rw [List.append_nil, ← text] at members
  rw [Condition.formula_eq_conjoined]
  simp [Formula.read, tokens, members]

namespace Condition

mutual

theorem wellFormed_of_tight (source : Option String) :
    ∀ p : Predicate, p.Tight → (ofPredicate source p).WellFormed
  | .equals column value, _ => by cases value <;> trivial
  | .less column value, _ => trivial
  | .greater column value, _ => trivial
  | .isNull column, _ => trivial
  | .all members, tight => by
      refine ⟨fun none => ?_, allWellFormed_of_tight source members tight.2⟩
      have long := tight.1
      cases members with
      | nil => exact absurd long (by decide)
      | cons p ps => cases none
  | .negation inner, tight => wellFormed_of_tight source inner tight

theorem allWellFormed_of_tight (source : Option String) :
    ∀ ps : List Predicate, Predicate.AllTight ps → AllWellFormed (ofPredicates source ps)
  | [], _ => trivial
  | p :: ps, tight =>
      ⟨wellFormed_of_tight source p tight.1, allWellFormed_of_tight source ps tight.2⟩

end

theorem length_formulas_ofPredicates (source : Option String) (ps : List Predicate) :
    (formulas (ofPredicates source ps)).length = ps.length := by
  induction ps with
  | nil => rfl
  | cons p ps ih => rw [ofPredicates, formulas, List.length_cons, List.length_cons, ih]

/-- A conjunction with two members or more is one for its reader, too. -/
theorem conjoined_eq_all {fs : List Formula} (long : 2 ≤ fs.length) :
    Formula.conjoined fs = .all fs := by
  match fs, long with
  | _ :: _ :: _, _ => rfl

mutual

/-- What the text of a tight predicate says is the predicate, settled. -/
theorem predicate?_formula (source : Option String) :
    ∀ p : Predicate, p.Tight → (ofPredicate source p).formula.predicate? source = some p.settled
  | .equals column value, _ => by
      have name := Column.read_segments source column
      cases value <;> simp [ofPredicate, formula, Formula.predicate?, name, Predicate.settled]
  | .less column value, _ => by
      have name := Column.read_segments source column
      simp [ofPredicate, formula, Formula.predicate?, name, Predicate.settled]
  | .greater column value, _ => by
      have name := Column.read_segments source column
      simp [ofPredicate, formula, Formula.predicate?, name, Predicate.settled]
  | .isNull column, _ => by
      have name := Column.read_segments source column
      simp [ofPredicate, formula, Formula.predicate?, name, Predicate.settled]
  | .all members, tight => by
      have each := predicates?_formulas source members tight.2
      have long : 2 ≤ (formulas (ofPredicates source members)).length := by
        rw [length_formulas_ofPredicates]
        exact tight.1
      simp [ofPredicate, formula, conjoined_eq_all long, Formula.predicate?, each,
        Predicate.settled]
  | .negation inner, tight => by
      have within := predicate?_formula source inner tight
      simp [ofPredicate, formula, Formula.predicate?, within, Predicate.settled]

theorem predicates?_formulas (source : Option String) :
    ∀ ps : List Predicate, Predicate.AllTight ps →
      Formula.predicates? source (formulas (ofPredicates source ps)) =
        some (Predicate.settledAll ps)
  | [], _ => rfl
  | p :: ps, tight => by
      have first := predicate?_formula source p tight.1
      have others := predicates?_formulas source ps tight.2
      simp [ofPredicates, formulas, Formula.predicates?, first, others, Predicate.settledAll]

end

end Condition

end Sql

namespace Predicate

theorem read_of_tight {p : Predicate} (tight : p.Tight) (source : Option String) :
    let tokens := (Sql.Condition.ofPredicate source p).tokens
    Predicate.read source (Sql.textOf tokens) (Sql.valuesOf tokens) = some p.settled := by
  intro tokens
  have formula := Sql.Formula.read_tokens (Sql.Condition.wellFormed_of_tight source p tight)
  rw [Predicate.read, formula]
  exact Sql.Condition.predicate?_formula source p tight

/-- **Predicates have texts without ambiguity.**  What is built has no conjunction with fewer than
two members and, unless it is `none` itself, no `none` in it.  Its text, with the columns of any
source or with bare ones, is read as the same tree, and binds the values of its comparisons in their
order. -/
theorem read_of_built {p : Predicate} (built : p.Built) :
    (p = .none ∨ p.Tight) ∧
      (p ≠ .none → ∀ source : Option String,
        let tokens := (Sql.Condition.ofPredicate source p).tokens
        Predicate.read source (Sql.textOf tokens) (Sql.valuesOf tokens) = some p.settled ∧
          Sql.valuesOf tokens = p.values) := by
  have whole := tight_of_built built
  refine ⟨whole, fun some source => ?_⟩
  have tight := whole.resolve_left some
  refine ⟨read_of_tight tight source, ?_⟩
  rw [Sql.Condition.tokens, Sql.Condition.valuesOf_tokensWithin, Sql.Condition.values_ofPredicate]

/-- A conjunction under NOT inside another one, with equality with null and a name with a dot. -/
theorem read_of_built_nested :
    let inner := Predicate.and [.equals "role" (.text "admin"), .none, .equals "left.at" .null]
    let p := inner.not.andThen (.less "age" (.int 30))
    let tokens := (Sql.Condition.ofPredicate (some "u") p).tokens
    p.Built ∧ p ≠ .none ∧
      Sql.textOf tokens =
        "NOT (\"u\".\"role\" = ? AND \"u\".\"left.at\" IS NULL) AND \"u\".\"age\" < ?" ∧
      Predicate.read (some "u") (Sql.textOf tokens) (Sql.valuesOf tokens) =
        some (.all
          [.negation (.all [.equals "role" (.text "admin"), .isNull "left.at"]),
           .less "age" (.int 30)]) ∧
      Sql.valuesOf tokens = [.text "admin", .int 30] := by
  intro inner p tokens
  have members : ∀ q ∈ [Predicate.equals "role" (.text "admin"), .none, .equals "left.at" .null],
      q.Built := by
    simp only [List.forall_mem_cons]
    exact ⟨.equals _ _, .none, .equals _ _, List.forall_mem_nil _⟩
  have built : p.Built := .andThen (.not (.and members)) (.less _ _)
  have notNone : p ≠ .none := Predicate.noConfusion
  obtain ⟨same, values⟩ := (read_of_built built).2 notNone (some "u")
  exact ⟨built, notNone, rfl, same, values⟩

end Predicate

end RequestQuery
