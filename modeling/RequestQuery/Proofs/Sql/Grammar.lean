/-
# The grammar of a selection

A reader for the text of a SELECT, written after the grammar and not after the renderer:

    SELECT list FROM table [WHERE conjunct {AND conjunct}] [GROUP BY list] [ORDER BY list]

A name is one or more segments with dots between them, so what is read is a `Path`; which text it
was made of is not seen any more.  NOT binds tighter than AND, and parentheses group.

`Selection.read` gives back exactly what was rendered (`read_select`): no condition, key or name is
lost, split or joined, wherever clauses are missing.
-/
import RequestQuery.Proofs.Sql.Quoting

namespace RequestQuery.Sql

set_option autoImplicit false

/-! ## What is read -/

/-- The segments of a name. -/
abbrev Path := List String

inductive Formula where
  | always
  | isNull (column : Path)
  | compares (column : Path) (comparison : Comparison) (value : Parameter)
  | sameAs (left right : Path)
  | among (column : Path) (values : List Parameter)
  | all (members : List Formula)
  | negation (inner : Formula)
  | hasRecord (table knownAs : Path) (members : List Formula)

/-- Members in parentheses; a single one is itself. -/
def Formula.conjoined : List Formula → Formula
  | [f] => f
  | fs => .all fs

structure Selection where
  /-- All columns where there is none. -/
  projection : Option (List Path)
  table : Path
  conditions : List Formula
  groupBy : List Path
  orderBy : List (Path × SortOrder)

/-! ## Readers -/

/-- What is found at the front of some tokens, and the tokens after it. -/
abbrev Reader (α : Type) := List Token → Option (α × List Token)

namespace Reading

def expect : List Word → List Token → Option (List Token)
  | [], ts => some ts
  | w :: ws, .word v :: ts => if v = w then expect ws ts else none
  | _ :: _, _ => none

def path : Reader Path
  | .segment name :: .word .dot :: ts => (path ts).map fun found => (name :: found.1, found.2)
  | .segment name :: ts => some ([name], ts)
  | _ => none

def value : Reader Parameter
  | .value v :: ts => some (v, ts)
  | _ => none

/-- One or more items; the number bounds how many. -/
def separated {α : Type} (separator : Word) (item : Reader α) : Nat → Reader (List α)
  | 0, _ => none
  | n + 1, ts => do
      let (first, ts) ← item ts
      match expect [separator] ts with
      | none => some ([first], ts)
      | some ts => do
          let (others, ts) ← separated separator item n ts
          some (first :: others, ts)

def listOf {α : Type} (separator : Word) (item : Reader α) : Reader (List α) := fun ts =>
  separated separator item (ts.length + 1) ts

/-- A condition about one column. -/
def comparison : Reader Formula := fun ts => do
  let (column, ts) ← path ts
  match ts with
  | .word .IS :: .word .NULL :: ts => some (.isNull column, ts)
  | .word .equal :: .value v :: ts => some (.compares column .equal v, ts)
  | .word .less :: .value v :: ts => some (.compares column .less v, ts)
  | .word .greater :: .value v :: ts => some (.compares column .greater v, ts)
  | .word .equal :: ts => do
      let (right, ts) ← path ts
      some (.sameAs column right, ts)
  | .word .IN :: .word .opening :: .word .closing :: ts => some (.among column [], ts)
  | .word .IN :: .word .opening :: ts => do
      let (values, ts) ← listOf .comma value ts
      let ts ← expect [.closing] ts
      some (.among column values, ts)
  | _ => none

/-- One member of a conjunction; the number bounds how deep it is nested. -/
def condition : Nat → Reader Formula
  | 0, _ => none
  | n + 1, .word .NOT :: ts => do
      let (inner, ts) ← condition n ts
      some (.negation inner, ts)
  | n + 1, .word .opening :: ts => do
      let (members, ts) ← listOf .AND (condition n) ts
      let ts ← expect [.closing] ts
      some (.conjoined members, ts)
  | n + 1, .word .EXISTS :: ts => do
      let ts ← expect [.opening, .SELECT, .one, .FROM] ts
      let (table, ts) ← path ts
      let ts ← expect [.AS] ts
      let (knownAs, ts) ← path ts
      let ts ← expect [.WHERE] ts
      let (members, ts) ← listOf .AND (condition n) ts
      let ts ← expect [.closing] ts
      some (.hasRecord table knownAs members, ts)
  | _ + 1, .word .one :: ts => do
      let ts ← expect [.equal, .one] ts
      some (.always, ts)
  | _ + 1, ts => comparison ts

def projection : Reader (Option (List Path))
  | .word .star :: ts => some (none, ts)
  | ts => do
      let (paths, ts) ← listOf .comma path ts
      some (some paths, ts)

def sortKey : Reader (Path × SortOrder) := fun ts => do
  let (column, ts) ← path ts
  match ts with
  | .word .ASC :: ts => some ((column, .ascending), ts)
  | .word .DESC :: ts => some ((column, .descending), ts)
  | _ => none

/-- A clause that may be missing. -/
def clause {α : Type} (start : List Word) (items : Reader (List α)) : Reader (List α) := fun ts =>
  match expect start ts with
  | some ts => items ts
  | none => some ([], ts)

def selection : Reader Selection := fun ts => do
  let ts ← expect [.SELECT] ts
  let (projection, ts) ← projection ts
  let ts ← expect [.FROM] ts
  let (table, ts) ← path ts
  let (conditions, ts) ← clause [.WHERE] (listOf .AND (condition ts.length)) ts
  let (groupBy, ts) ← clause [.GROUP, .BY] (listOf .comma path) ts
  let (orderBy, ts) ← clause [.ORDER, .BY] (listOf .comma sortKey) ts
  some ({ projection, table, conditions, groupBy, orderBy }, ts)

end Reading

/-! ## Reading a text -/

def Token.isBlank : Token → Bool
  | .space => true
  | _ => false

/-- The tokens that matter to the grammar. -/
def solid (ts : List Token) : List Token :=
  ts.filter fun t => !t.isBlank

/-- The selection that a text with these values is, if it is one from its beginning to its end. -/
def Selection.read (sql : String) (values : List Parameter) : Option Selection := do
  let ts ← readTokens sql values
  let (selection, rest) ← Reading.selection (solid ts)
  if rest.isEmpty then some selection else none

/-! ## Blanks do not matter -/

@[simp] theorem solid_append (ts us : List Token) : solid (ts ++ us) = solid ts ++ solid us :=
  List.filter_append ..

@[simp] theorem solid_cons_word (w : Word) (ts : List Token) :
    solid (.word w :: ts) = .word w :: solid ts := rfl

@[simp] theorem solid_cons_segment (name : String) (ts : List Token) :
    solid (.segment name :: ts) = .segment name :: solid ts := rfl

@[simp] theorem solid_cons_value (p : Parameter) (ts : List Token) :
    solid (.value p :: ts) = .value p :: solid ts := rfl

@[simp] theorem solid_nil : solid [] = [] := rfl

theorem solid_intercalate (separator : List Token) (parts : List (List Token)) :
    solid (List.intercalate separator parts) =
      List.intercalate (solid separator) (parts.map solid) :=
  map_intercalate solid_nil solid_append separator parts

theorem intercalate_empty {α : Type} (parts : List (List α)) :
    List.intercalate [] parts = parts.flatten := by
  induction parts with
  | nil => rfl
  | cons part parts ih =>
      cases parts with
      | nil => simp
      | cons next parts => rw [List.intercalate_cons_cons, ih]; simp

@[simp] theorem solid_phrase (parts : List (List Token)) :
    solid (phrase parts) = (parts.map solid).flatten := by
  rw [phrase, solid_intercalate]
  exact intercalate_empty _

@[simp] theorem solid_listed (items : List (List Token)) :
    solid (listed items) = List.intercalate [.word .comma] (items.map solid) :=
  solid_intercalate _ items

@[simp] theorem solid_parenthesized (ts : List Token) :
    solid (parenthesized ts) = .word .opening :: (solid ts ++ [.word .closing]) := by
  simp [parenthesized]

@[simp] theorem solid_words (ws : List Word) : solid (words ws) = ws.map .word := by
  induction ws with
  | nil => rfl
  | cons w ws ih =>
      simp only [words, solid_phrase, List.map_cons, List.flatten_cons] at ih ⊢
      rw [ih]
      rfl

@[simp] theorem solid_path (name : String) : solid (path name) = path name := by
  rw [path, solid_intercalate, List.map_map]
  rfl

@[simp] theorem Column.solid_tokens (column : Column) : solid column.tokens = column.tokens := by
  cases column with
  | bare name => exact solid_path name
  | qualified source name => rfl

theorem Condition.solid_conjunction (cs : List Condition) :
    solid (Condition.conjunction cs) =
      List.intercalate [.word .AND] (cs.map fun c => solid (c.tokensWithin true)) := by
  induction cs with
  | nil => rfl
  | cons c cs ih =>
      cases cs with
      | nil => simp [conjunction]
      | cons d cs =>
          simp only [List.map_cons, List.intercalate_cons_cons] at ih ⊢
          rw [← ih]
          simp [conjunction]

/-! ## Readers undo the renderer -/

namespace Reading

@[simp] theorem expect_map (ws : List Word) (ts : List Token) :
    expect ws (ws.map .word ++ ts) = some ts := by
  induction ws with
  | nil => rfl
  | cons w ws ih => simpa [expect] using ih

theorem path_segments {names : List String} (nonempty : names ≠ []) {rest : List Token}
    (stop : expect [.dot] rest = none) :
    path (List.intercalate [.word .dot] (names.map fun s => [.segment s]) ++ rest) =
      some (names, rest) := by
  induction names with
  | nil => exact absurd rfl nonempty
  | cons name names ih =>
      cases names with
      | nil =>
          simp only [List.map_cons, List.map_nil, List.intercalate_singleton, List.singleton_append]
          unfold path
          split
          · rename_i same
            cases same
            simp [expect] at stop
          · rename_i same
            cases same
            rfl
          · rename_i different
            exact absurd rfl (different name rest)
      | cons next names =>
          have others := ih (List.cons_ne_nil _ _)
          simp only [List.map_cons, List.intercalate_cons_cons, List.cons_append, List.nil_append,
            path] at others ⊢
          rw [others]
          rfl

/-- A name is read back as its segments. -/
theorem path_path (name : String) {rest : List Token} (stop : expect [.dot] rest = none) :
    path (Sql.path name ++ rest) = some (pathSegments name, rest) :=
  path_segments (pathSegments_ne_nil name) stop

theorem path_column (column : Column) {rest : List Token} (stop : expect [.dot] rest = none) :
    path (column.tokens ++ rest) = some (column.segments, rest) := by
  cases column with
  | bare name => exact path_path name stop
  | qualified source name => exact path_segments (List.cons_ne_nil source [name]) stop

/-- A name starts with a segment, so it is not taken for a word. -/
theorem tokens_eq_segment (column : Column) :
    ∃ name ts, column.tokens = .segment name :: ts := by
  cases column with
  | qualified source name => exact ⟨_, _, rfl⟩
  | bare name =>
      obtain ⟨first, more, h⟩ := List.exists_cons_of_ne_nil (pathSegments_ne_nil name)
      cases more with
      | nil => exact ⟨first, [], by simp [Column.tokens, Sql.path, h]⟩
      | cons next more =>
          exact ⟨first, _, by simp [Column.tokens, Sql.path, h, List.intercalate_cons_cons]; rfl⟩

theorem length_le_intercalate {separator part : List Token} {parts : List (List Token)}
    (h : part ∈ parts) : part.length ≤ (List.intercalate separator parts).length := by
  induction parts with
  | nil => cases h
  | cons first parts ih =>
      cases parts with
      | nil =>
          rw [List.mem_singleton.1 h, List.intercalate_singleton]
      | cons next parts =>
          simp only [List.intercalate_cons_cons, List.length_append]
          rcases List.mem_cons.1 h with rfl | h
          · omega
          · have := ih h
            omega

theorem length_parts_le (s : Token) (parts : List (List Token)) :
    parts.length ≤ (List.intercalate [s] parts).length + 1 := by
  induction parts with
  | nil => exact Nat.zero_le _
  | cons first parts ih =>
      cases parts with
      | nil => exact Nat.succ_le_succ (Nat.zero_le _)
      | cons next parts =>
          simp only [List.intercalate_cons_cons, List.length_append, List.length_cons,
            List.length_nil] at ih ⊢
          omega

section Lists

variable {α β : Type} {separator : Word} {item : Reader β} {print : α → List Token} {value : α → β}

theorem separated_append (notDot : separator ≠ .dot) {rest : List Token}
    (noDot : expect [.dot] rest = none) (stop : expect [separator] rest = none) :
    ∀ {items : List α} {n : Nat}, items ≠ [] → items.length ≤ n →
      (∀ a ∈ items, ∀ more, expect [.dot] more = none →
        item (print a ++ more) = some (value a, more)) →
      separated separator item n
          (List.intercalate [.word separator] (items.map print) ++ rest) =
        some (items.map value, rest)
  | [], _, nonempty, _, _ => absurd rfl nonempty
  | _ :: _, 0, _, bound, _ => absurd bound (Nat.not_succ_le_zero _)
  | [a], n + 1, _, _, reads => by
      have only := reads a (List.mem_singleton_self a) rest noDot
      simp [separated, only, stop]
  | a :: b :: items, n + 1, _, bound, reads => by
      rw [List.forall_mem_cons] at reads
      have others := separated_append notDot noDot stop (List.cons_ne_nil b items)
        (Nat.le_of_succ_le_succ bound) reads.2
      have first := reads.1 (.word separator ::
        (List.intercalate [.word separator] ((b :: items).map print) ++ rest))
        (by simp [expect, notDot])
      simp only [List.map_cons, List.intercalate_cons_cons, List.append_assoc, List.cons_append,
        List.nil_append] at first others ⊢
      simp [separated, first, expect, others]

/-- A list is read back item by item. -/
theorem listOf_append (notDot : separator ≠ .dot) {rest : List Token}
    (noDot : expect [.dot] rest = none) (stop : expect [separator] rest = none)
    {items : List α} (nonempty : items ≠ [])
    (reads : ∀ a ∈ items, ∀ more, expect [.dot] more = none →
      item (print a ++ more) = some (value a, more)) :
    listOf separator item (List.intercalate [.word separator] (items.map print) ++ rest) =
      some (items.map value, rest) := by
  refine separated_append notDot noDot stop nonempty ?_ reads
  have := length_parts_le (.word separator) (items.map print)
  simp only [List.length_map, List.length_append] at this ⊢
  omega

end Lists

end Reading

/-! ## Conditions -/

namespace Condition

mutual

/-- What the text of a condition says. -/
def formula : Condition → Formula
  | .always => .always
  | .isNull column => .isNull column.segments
  | .compares column comparison value => .compares column.segments comparison value
  | .sameAs left right => .sameAs left.segments right.segments
  | .among column values => .among column.segments values
  | .all members => .conjoined (formulas members)
  | .negation inner => .negation (formula inner)
  | .hasRecord negated table knownAs members =>
      let found :=
        .hasRecord (pathSegments table) (pathSegments knownAs) (formulas members)
      if negated then .negation found else found

def formulas : List Condition → List Formula
  | [] => []
  | c :: cs => formula c :: formulas cs

end

mutual

/-- No conjunction in the condition is empty; an empty one has no text. -/
def WellFormed : Condition → Prop
  | .all members | .hasRecord _ _ _ members => members ≠ [] ∧ AllWellFormed members
  | .negation inner => inner.WellFormed
  | _ => True

def AllWellFormed : List Condition → Prop
  | [] => True
  | c :: cs => c.WellFormed ∧ AllWellFormed cs

end

theorem allWellFormed_iff {cs : List Condition} :
    AllWellFormed cs ↔ ∀ c ∈ cs, c.WellFormed := by
  induction cs with
  | nil => simp [AllWellFormed]
  | cons c cs ih => simp [AllWellFormed, ih]

/-- The members of a conjunction, or the condition itself. -/
def members : Condition → List Condition
  | .all members => members
  | c => [c]

theorem tokensWithin_false (c : Condition) : c.tokensWithin false = conjunction c.members := by
  cases c <;> simp [tokensWithin, members, conjunction]

theorem formula_eq_conjoined (c : Condition) : c.formula = .conjoined (formulas c.members) := by
  cases c <;> simp [formula, formulas, members, Formula.conjoined]

theorem formulas_eq_map (cs : List Condition) : formulas cs = cs.map formula := by
  induction cs with
  | nil => rfl
  | cons c cs ih => rw [formulas, ih, List.map_cons]

/-- A reader of conditions gives back the condition in front, whatever comes after it, if it may
go deep enough. -/
def ReadBack (c : Condition) : Prop :=
  ∀ (n : Nat) (rest : List Token), (solid (c.tokensWithin true)).length ≤ n →
    Reading.expect [.dot] rest = none →
    Reading.condition n (solid (c.tokensWithin true) ++ rest) = some (c.formula, rest)

end Condition

namespace Reading

/-- A condition that starts with a column is no compound one. -/
theorem readBack_of_column {c : Condition} {column : Column} {tail : List Token}
    (text : solid (c.tokensWithin true) = column.tokens ++ tail)
    (reads : ∀ rest, expect [.dot] rest = none →
      comparison (column.tokens ++ (tail ++ rest)) = some (c.formula, rest)) : c.ReadBack := by
  intro n rest bound noDot
  obtain ⟨name, ts, h⟩ := tokens_eq_segment column
  have := reads rest noDot
  rw [text, h] at bound
  rw [h] at this
  rw [text, h, List.append_assoc]
  cases n with
  | zero => exact absurd bound (Nat.not_succ_le_zero _)
  | succ n => exact this

theorem readBack_isNull (column : Column) : (Condition.isNull column).ReadBack := by
  have text : solid ((Condition.isNull column).tokensWithin true) =
      column.tokens ++ [.word .IS, .word .NULL] := by
    simp [Condition.tokensWithin]
  refine readBack_of_column text fun rest _ => ?_
  have name := path_column column (show expect [.dot] (.word .IS :: .word .NULL :: rest) = none
    from rfl)
  simp [comparison, name, Condition.formula]

theorem readBack_compares (column : Column) (operator : Comparison) (v : Parameter) :
    (Condition.compares column operator v).ReadBack := by
  have text : solid ((Condition.compares column operator v).tokensWithin true) =
      column.tokens ++ [.word operator.word, .value v] := by
    simp [Condition.tokensWithin]
  refine readBack_of_column text fun rest _ => ?_
  have name := path_column column
    (show expect [.dot] (.word operator.word :: .value v :: rest) = none by
      cases operator <;> rfl)
  cases operator <;> simp [comparison, name, Condition.formula, Comparison.word] at name ⊢

theorem readBack_sameAs (left right : Column) : (Condition.sameAs left right).ReadBack := by
  have text : solid ((Condition.sameAs left right).tokensWithin true) =
      left.tokens ++ .word .equal :: right.tokens := by
    simp [Condition.tokensWithin]
  refine readBack_of_column text fun rest noDot => ?_
  have name := path_column left (show expect [.dot] (.word .equal :: (right.tokens ++ rest)) = none
    from rfl)
  have second := path_column right noDot
  -- The right side starts with a segment, so it is not taken for a value.
  obtain ⟨first, ts, h⟩ := tokens_eq_segment right
  rw [h] at name second ⊢
  simp only [List.cons_append] at name second ⊢
  simp [comparison, name, second, Condition.formula]

theorem readBack_among (column : Column) (values : List Parameter) :
    (Condition.among column values).ReadBack := by
  have text : solid ((Condition.among column values).tokensWithin true) =
      column.tokens ++ (.word .IN :: .word .opening ::
        (List.intercalate [.word .comma] (values.map fun v => [.value v]) ++
          [.word .closing])) := by
    simp [Condition.tokensWithin, Function.comp_def]
  refine readBack_of_column text fun rest _ => ?_
  have name := path_column column (show expect [.dot] (.word .IN :: .word .opening ::
    (List.intercalate [.word .comma] (values.map fun v => [.value v]) ++
      .word .closing :: rest)) = none from rfl)
  cases values with
  | nil =>
      simp at name
      simp [comparison, name, Condition.formula]
  | cons v values =>
      have items : listOf .comma value
          (List.intercalate [.word .comma] ((v :: values).map fun v => [.value v]) ++
            .word .closing :: rest) = some (v :: values, .word .closing :: rest) := by
        have reads : ∀ u ∈ v :: values, ∀ more, expect [.dot] more = none →
            value ([.value u] ++ more) = some (id u, more) := fun _ _ _ _ => rfl
        rw [listOf_append (by decide) rfl rfl (List.cons_ne_nil v values) reads, List.map_id]
      -- The first value shows that the list is not empty.
      obtain ⟨ts, h⟩ : ∃ ts, List.intercalate [.word .comma]
          ((v :: values).map fun v => [Token.value v]) = .value v :: ts := by
        cases values <;> exact ⟨_, rfl⟩
      rw [h] at items name ⊢
      simp only [List.cons_append] at items name ⊢
      simp [comparison, name, items, expect, Condition.formula]

/-- The members of a conjunction are read back together. -/
theorem conjunction_append {cs : List Condition} (nonempty : cs ≠ [])
    (reads : ∀ c ∈ cs, c.ReadBack) {n : Nat}
    (bound : (solid (Condition.conjunction cs)).length ≤ n) {rest : List Token}
    (noDot : expect [.dot] rest = none) (noAnd : expect [.AND] rest = none) :
    listOf .AND (condition n) (solid (Condition.conjunction cs) ++ rest) =
      some (Condition.formulas cs, rest) := by
  rw [Condition.formulas_eq_map]
  rw [Condition.solid_conjunction] at bound ⊢
  refine listOf_append (by decide) noDot noAnd nonempty fun c mem more noDot => ?_
  have listed : solid (c.tokensWithin true) ∈ cs.map fun c => solid (c.tokensWithin true) :=
    List.mem_map.2 ⟨c, mem, rfl⟩
  exact reads c mem n more (Nat.le_trans (length_le_intercalate listed) bound) noDot

theorem readBack_all {members : List Condition} (nonempty : members ≠ [])
    (reads : ∀ c ∈ members, c.ReadBack) : (Condition.all members).ReadBack := by
  intro n rest bound _
  simp only [Condition.tokensWithin, if_true, solid_parenthesized, List.length_cons,
    List.length_append] at bound
  cases n with
  | zero => exact absurd bound (Nat.not_succ_le_zero _)
  | succ n =>
      have shorter := Nat.le_of_succ_le (Nat.le_of_succ_le_succ bound)
      have inner := conjunction_append nonempty reads shorter
        (show expect [.dot] (.word .closing :: rest) = none from rfl) rfl
      simp [Condition.tokensWithin, condition, inner, expect, Condition.formula]

theorem readBack_negation {inner : Condition} (nonempty : inner.members ≠ [])
    (reads : ∀ c ∈ inner.members, c.ReadBack) : (Condition.negation inner).ReadBack := by
  intro n rest bound _
  simp only [Condition.tokensWithin, Condition.tokensWithin_false, solid_phrase, List.map_cons,
    List.map_nil, solid_words, solid_parenthesized, List.flatten_cons, List.flatten_nil,
    List.length_append, List.length_cons, List.length_nil] at bound
  -- One step reads NOT, a second one the parentheses.
  obtain _ | _ | n := n
  · omega
  · omega
  · have within := conjunction_append nonempty reads (show _ ≤ n by omega)
      (show expect [.dot] (.word .closing :: rest) = none from rfl) rfl
    rw [Condition.formula, Condition.formula_eq_conjoined]
    simp [Condition.tokensWithin, Condition.tokensWithin_false, condition, within, expect]

theorem readBack_hasRecord (negated : Bool) (table knownAs : String) {members : List Condition}
    (nonempty : members ≠ []) (reads : ∀ c ∈ members, c.ReadBack) :
    (Condition.hasRecord negated table knownAs members).ReadBack := by
  intro n rest bound _
  have found : ∀ k, (solid (Condition.conjunction members)).length ≤ k →
      condition (k + 1) (.word .EXISTS :: .word .opening :: .word .SELECT :: .word .one ::
          .word .FROM :: (Sql.path table ++ .word .AS :: (Sql.path knownAs ++ .word .WHERE ::
            (solid (Condition.conjunction members) ++ .word .closing :: rest)))) =
        some (.hasRecord (pathSegments table) (pathSegments knownAs)
          (Condition.formulas members), rest) := by
    intro k deep
    have within := conjunction_append nonempty reads deep
      (show expect [.dot] (.word .closing :: rest) = none from rfl) rfl
    have first := path_path table (show expect [.dot] (.word .AS :: (Sql.path knownAs ++
      .word .WHERE :: (solid (Condition.conjunction members) ++ .word .closing :: rest))) = none
      from rfl)
    have second := path_path knownAs (show expect [.dot] (.word .WHERE ::
      (solid (Condition.conjunction members) ++ .word .closing :: rest)) = none from rfl)
    simp [condition, expect, first, second, within]
  cases negated with
  | false =>
      simp [Condition.tokensWithin] at bound ⊢
      obtain _ | n := n
      · omega
      · rw [found n (by omega)]
        rfl
  | true =>
      simp [Condition.tokensWithin] at bound ⊢
      obtain _ | _ | n := n
      · omega
      · omega
      · rw [condition, found n (by omega)]
        rfl

theorem readBack_of_members {c : Condition}
    (h : c.members ≠ [] ∧ ∀ m ∈ c.members, m.ReadBack) : c.ReadBack := by
  cases c with
  | all members => exact readBack_all h.1 h.2
  | _ => exact h.2 _ (List.mem_singleton_self _)

theorem members_of_readBack {c : Condition} (alone : c.members = [c]) (h : c.ReadBack) :
    c.members ≠ [] ∧ ∀ m ∈ c.members, m.ReadBack := by
  rw [alone]
  simpa using h

mutual

theorem readBack_members :
    ∀ c : Condition, c.WellFormed → c.members ≠ [] ∧ ∀ m ∈ c.members, m.ReadBack
  | .always, _ => by
      refine members_of_readBack rfl fun n rest bound _ => ?_
      obtain _ | n := n
      · exact absurd bound (by simp [Condition.tokensWithin])
      · rfl
  | .isNull column, _ => members_of_readBack rfl (readBack_isNull column)
  | .compares column operator v, _ => members_of_readBack rfl (readBack_compares column operator v)
  | .sameAs left right, _ => members_of_readBack rfl (readBack_sameAs left right)
  | .among column values, _ => members_of_readBack rfl (readBack_among column values)
  | .all members, wellFormed => ⟨wellFormed.1, readBack_each members wellFormed.2⟩
  | .negation inner, wellFormed => by
      have within := readBack_members inner wellFormed
      exact members_of_readBack rfl (readBack_negation within.1 within.2)
  | .hasRecord negated table knownAs members, wellFormed =>
      members_of_readBack rfl
        (readBack_hasRecord negated table knownAs wellFormed.1
          (readBack_each members wellFormed.2))

theorem readBack_each :
    ∀ cs : List Condition, Condition.AllWellFormed cs → ∀ c ∈ cs, c.ReadBack
  | c :: cs, wellFormed, d, mem => by
      have first := readBack_of_members (readBack_members c wellFormed.1)
      have others := readBack_each cs wellFormed.2
      rcases List.mem_cons.1 mem with rfl | mem
      · exact first
      · exact others d mem

end

/-! ## Clauses -/

/-- The tokens of the clauses of a statement that matter to the grammar. -/
def solidClause (parts : List (List Token)) : List Token :=
  (parts.map solid).flatten

theorem clause_whereClause {conditions : List Condition}
    (wellFormed : Condition.AllWellFormed conditions) {n : Nat}
    (bound : (solidClause (whereClause conditions)).length ≤ n) {rest : List Token}
    (absent : expect [.WHERE] rest = none) (noDot : expect [.dot] rest = none)
    (noAnd : expect [.AND] rest = none) :
    clause [.WHERE] (listOf .AND (condition n)) (solidClause (whereClause conditions) ++ rest) =
      some (Condition.formulas conditions, rest) := by
  cases conditions with
  | nil => simp [solidClause, whereClause, clause, absent, Condition.formulas]
  | cons c cs =>
      have shorter : (solid (Condition.conjunction (c :: cs))).length ≤ n := by
        simp [solidClause, whereClause] at bound
        omega
      have members := conjunction_append (List.cons_ne_nil c cs) (readBack_each _ wellFormed)
        shorter noDot noAnd
      simp [solidClause, whereClause, clause, expect, members]

theorem clause_groupByClause (keys : List String) {rest : List Token}
    (absent : expect [.GROUP, .BY] rest = none) (noDot : expect [.dot] rest = none)
    (noComma : expect [.comma] rest = none) :
    clause [.GROUP, .BY] (listOf .comma path) (solidClause (groupByClause keys) ++ rest) =
      some (keys.map pathSegments, rest) := by
  cases keys with
  | nil => simp [solidClause, groupByClause, clause, absent]
  | cons key keys =>
      have names := listOf_append (by decide) noDot noComma (List.cons_ne_nil key keys)
        fun key _ more noDot => path_path key noDot
      simp [solidClause, groupByClause, clause, expect, Function.comp_def] at names ⊢
      exact names

theorem sortKey_append (key : OrderKey) (rest : List Token) :
    sortKey (Sql.path key.column ++ .word (directionWord key.order) :: rest) =
      some ((pathSegments key.column, key.order), rest) := by
  obtain ⟨column, order⟩ := key
  cases order with
  | ascending =>
      have name := path_path column (show expect [.dot] (.word .ASC :: rest) = none from rfl)
      simp [sortKey, directionWord, name]
  | descending =>
      have name := path_path column (show expect [.dot] (.word .DESC :: rest) = none from rfl)
      simp [sortKey, directionWord, name]

theorem clause_orderByClause (keys : List OrderKey) :
    clause [.ORDER, .BY] (listOf .comma sortKey) (solidClause (orderByClause keys)) =
      some (keys.map fun key => (pathSegments key.column, key.order), []) := by
  cases keys with
  | nil => rfl
  | cons key keys =>
      have reads : ∀ k ∈ key :: keys, ∀ more, expect [.dot] more = none →
          sortKey ((Sql.path k.column ++ [.word (directionWord k.order)]) ++ more) =
            some ((pathSegments k.column, k.order), more) := by
        intro k _ more _
        rw [List.append_assoc]
        exact sortKey_append k more
      have sorting := listOf_append (by decide) (show expect [.dot] [] = none from rfl)
        (show expect [.comma] [] = none from rfl) (List.cons_ne_nil key keys) reads
      simp [solidClause, orderByClause, clause, expect, Function.comp_def] at sorting ⊢
      exact sorting

/-- A clause starts with its own word and with no other one. -/
theorem expect_whereClause {w : Word} {ws : List Word} (other : w ≠ .WHERE)
    (conditions : List Condition) {rest : List Token} (after : expect (w :: ws) rest = none) :
    expect (w :: ws) (solidClause (whereClause conditions) ++ rest) = none := by
  cases conditions with
  | nil => simpa [solidClause, whereClause] using after
  | cons c cs => simp [solidClause, whereClause, expect, Ne.symm other]

theorem expect_groupByClause {w : Word} {ws : List Word} (other : w ≠ .GROUP)
    (keys : List String) {rest : List Token} (after : expect (w :: ws) rest = none) :
    expect (w :: ws) (solidClause (groupByClause keys) ++ rest) = none := by
  cases keys with
  | nil => simpa [solidClause, groupByClause] using after
  | cons key keys => simp [solidClause, groupByClause, expect, Ne.symm other]

theorem expect_orderByClause {w : Word} {ws : List Word} (other : w ≠ .ORDER)
    (keys : List OrderKey) : expect (w :: ws) (solidClause (orderByClause keys)) = none := by
  cases keys with
  | nil => rfl
  | cons key keys => simp [solidClause, orderByClause, expect, Ne.symm other]

theorem projection_append {columns : Option (List String)} (someColumn : columns ≠ some [])
    (rest : List Token) :
    projection (solid (projectionTokens columns) ++ .word .FROM :: rest) =
      some (columns.map fun names => names.map pathSegments, .word .FROM :: rest) := by
  cases columns with
  | none => rfl
  | some names =>
      have nonempty : names ≠ [] := fun none => someColumn (by rw [none])
      have list := listOf_append (by decide)
        (show expect [.dot] (.word .FROM :: rest) = none from rfl)
        (show expect [.comma] (.word .FROM :: rest) = none from rfl) nonempty
        fun name _ more noDot => path_path name noDot
      simp only [projectionTokens, solid_listed, List.map_map, Function.comp_def, solid_path]
      -- A list starts with a segment, so it is not taken for all columns.
      obtain ⟨name, names, rfl⟩ := List.exists_cons_of_ne_nil nonempty
      obtain ⟨first, ts, h⟩ : ∃ first ts,
          List.intercalate [.word .comma] ((name :: names).map Sql.path) =
            .segment first :: ts := by
        obtain ⟨first, ts, h⟩ := tokens_eq_segment (.bare name)
        have front : Sql.path name = .segment first :: ts := h
        cases names with
        | nil => exact ⟨first, ts, by simp [front]⟩
        | cons next names => exact ⟨first, _, by simp [front, List.intercalate_cons_cons]; rfl⟩
      rw [h, List.cons_append] at list
      rw [h]
      simp [projection, list]

/-- The text of a selection is read from its beginning to its end. -/
theorem selection_append {columns : Option (List String)} (someColumn : columns ≠ some [])
    (table : String) {conditions : List Condition}
    (wellFormed : Condition.AllWellFormed conditions) (groupBy : List String)
    (orderBy : List OrderKey) :
    selection (solid (Statement.select columns table conditions groupBy orderBy).tokens) =
      some
        ({ projection := columns.map fun names => names.map pathSegments
           table := pathSegments table
           conditions := Condition.formulas conditions
           groupBy := groupBy.map pathSegments
           orderBy := orderBy.map fun key => (pathSegments key.column, key.order) }, []) := by
  have text : solid (Statement.select columns table conditions groupBy orderBy).tokens =
      .word .SELECT :: (solid (projectionTokens columns) ++ .word .FROM :: (Sql.path table ++
        (solidClause (whereClause conditions) ++
          (solidClause (groupByClause groupBy) ++ solidClause (orderByClause orderBy))))) := by
    simp [Statement.tokens, solidClause]
  have columnsRead := projection_append someColumn (Sql.path table ++
    (solidClause (whereClause conditions) ++
      (solidClause (groupByClause groupBy) ++ solidClause (orderByClause orderBy))))
  have afterKeys : ∀ {w ws}, w ≠ Word.ORDER →
      expect (w :: ws) (solidClause (orderByClause orderBy)) = none :=
    fun other => expect_orderByClause other orderBy
  have afterConditions : ∀ {w ws}, w ≠ Word.GROUP → w ≠ .ORDER →
      expect (w :: ws) (solidClause (groupByClause groupBy) ++
        solidClause (orderByClause orderBy)) = none :=
    fun other another => expect_groupByClause other groupBy (afterKeys another)
  have tableRead := path_path table (expect_whereClause (by decide) conditions
    (afterConditions (by decide) (by decide)))
  have shorter : (solidClause (whereClause conditions)).length ≤
      (solidClause (whereClause conditions) ++
        (solidClause (groupByClause groupBy) ++ solidClause (orderByClause orderBy))).length := by
    rw [List.length_append]
    exact Nat.le_add_right ..
  have conditionsRead := clause_whereClause wellFormed shorter
    (afterConditions (by decide) (by decide)) (afterConditions (by decide) (by decide))
    (afterConditions (by decide) (by decide))
  have keysRead := clause_groupByClause groupBy (afterKeys (by decide)) (afterKeys (by decide))
    (afterKeys (by decide))
  rw [text]
  simp [selection, expect, columnsRead, tableRead, conditionsRead, keysRead,
    clause_orderByClause, -List.length_append]

end Reading

/-- **A selection is read back as what it was rendered from.**  The columns are all of them or a
list that is not empty, and no conjunction in the conditions is empty; the renderer is asked for no
others. -/
theorem Selection.read_select {columns : Option (List String)} (someColumn : columns ≠ some [])
    (table : String) {conditions : List Condition}
    (wellFormed : Condition.AllWellFormed conditions) (groupBy : List String)
    (orderBy : List OrderKey) :
    let statement := Statement.select columns table conditions groupBy orderBy
    Selection.read statement.sql statement.parameters =
      some
        { projection := columns.map fun names => names.map pathSegments
          table := pathSegments table
          conditions := Condition.formulas conditions
          groupBy := groupBy.map pathSegments
          orderBy := orderBy.map fun key => (pathSegments key.column, key.order) } := by
  intro statement
  have tokens := readTokens_textOf (Statement.spaced_tokens statement)
  have whole := Reading.selection_append someColumn table wellFormed groupBy orderBy
  simp only [Selection.read, Statement.sql, Statement.parameters, tokens]
  simp [statement, whole]

end RequestQuery.Sql
