/-
# Which directives are accepted

The grammar of load and existence directives, written down without their readers.  A directive is an
object.  Its relation has to be a name; each other entry may be missing or null, which stands for
its default, and has to have a meaning where it is given.  A load has no entry `load` at all, and
the load nested in an existence directive is itself such a load, so nothing is nested any deeper.

Next to the grammar stand the requirements, in the order in which they are looked at, each with its
failure.  Reading succeeds exactly on what the grammar describes, with the result it describes, and
fails otherwise as the first requirement says that is not met (`Decides`); and so for the lists.
-/
import RequestQuery.Proofs.Request.Canonical
import RequestQuery.Proofs.Requirement

namespace RequestQuery.Request

set_option autoImplicit false

/-! ## Meanings of values -/

/-- A relation or a column: a text with something besides blanks in it, without the blanks around
it. -/
def IsName (value : Json.Value) (name : String) : Prop :=
  ∃ text, value = .string text ∧ name = Text.trim text ∧ name ≠ ""

/-- A direction is any text. -/
def IsDirection (value : Json.Value) (direction : String) : Prop :=
  ∃ text, value = .string text ∧ direction = Text.upper (Text.trim text)

/-- Digits, with or without a plus sign, that stand for a number. -/
def IsNumeral (text : String) (n : Nat) : Prop :=
  ∃ digits : List Char, (text.toList = digits ∨ text.toList = '+' :: digits) ∧ digits ≠ [] ∧
    (∀ c ∈ digits, c.isDigit = true) ∧ Nat.ofDigitChars 10 digits 0 = n

/-- A positive number of an unsigned word, as an integer or as a text with blanks around it. -/
def IsLimit (value : Json.Value) (limit : UInt64) : Prop :=
  0 < limit.toNat ∧
    ((∃ isWord, value = .number (.integer limit.toNat isWord)) ∨
      ∃ text, value = .string text ∧ IsNumeral (Text.trim text) limit.toNat)

/-- An operator is any text, too. -/
def IsOperator (value : Json.Value) (operator : Operator) : Prop :=
  ∃ text, value = .string text ∧ operator = Operator.ofText text

/-- A text, a number or a boolean. -/
def IsOperand (value : Json.Value) (operand : Option Parameter) : Prop :=
  operand = some (Parameter.ofJson value) ∧
    ((∃ text, value = .string text) ∨ (∃ n, value = .number n) ∨ ∃ b, value = .bool b)

/-! ## Entries of a directive -/

/-- An entry that may be missing or null. -/
inductive Entry {α : Type} (members : Json.Members) (name : String) (fallback : α)
    (Means : Json.Value → α → Prop) : α → Prop where
  | missing (absent : members.get? name = none) : Entry members name fallback Means fallback
  | null (present : members.get? name = some .null) : Entry members name fallback Means fallback
  | given {value : Json.Value} {a : α} (present : members.get? name = some value)
      (some : value ≠ .null) (means : Means value a) : Entry members name fallback Means a

/-- The relation that a directive is about. -/
def Names (members : Json.Members) (relation : String) : Prop :=
  ∃ value, members.get? "relationship" = some value ∧ IsName value relation

/-! ## The grammar -/

/-- The members of a load directive. -/
structure Load.Written (members : Json.Members) (load : Load) : Prop where
  relation : Names members load.relation
  flat : members.get? "load" = none
  key : Entry members "key" "id" IsName load.key
  direction : Entry members "direction" "ASC" IsDirection load.direction
  limit : Entry members "limit" 5 IsLimit load.limit

/-- A load directive that is nested in an existence directive. -/
def IsNestedLoad (value : Json.Value) (load : Option Load) : Prop :=
  ∃ members inner, value = .object members ∧ Load.Written members inner ∧ load = some inner

/-- The members of an existence directive. -/
structure Existence.Written (members : Json.Members) (existence : Existence) : Prop where
  relation : Names members existence.relation
  operator : Entry members "operator" .equal IsOperator existence.operator
  value : Entry members "value" none IsOperand existence.value
  negated : existence.negated = Existence.negation members
  load : Entry members "load" none IsNestedLoad existence.load

/-- An object with such members. -/
def Object {α : Type} (Written : Json.Members → α → Prop) (value : Json.Value) (a : α) : Prop :=
  ∃ members, value = .object members ∧ Written members a

/-- Nothing, one directive alone, or an array of them. -/
inductive Listed {α : Type} (Grammar : Json.Value → α → Prop) : Json.Value → List α → Prop where
  | nothing : Listed Grammar .null []
  | alone {members : Json.Members} {a : α} (only : Grammar (.object members) a) :
      Listed Grammar (.object members) [a]
  | array {items : List Json.Value} {as : List α} (each : List.Forall₂ Grammar items as) :
      Listed Grammar (.array items) as

/-! ## What is looked at, in order -/

section Requirements

/-- What is given has to have a meaning. -/
def meaningful {α : Type} (field reason : String) (Means : Json.Value → α → Prop)
    (value : Json.Value) : Requirement where
  holds := ∃ a, Means value a
  failure := .of (.invalidInput field reason)

def entryRequirements {α : Type} (directive : String) (members : Json.Members) (name : String)
    (mismatch : Json.Value → String) (Means : Json.Value → α → Prop) : List Requirement :=
  (given? members name).toList.map fun value =>
    meaningful (directive ++ "." ++ name) (mismatch value) Means value

def namesSomething (directive : String) (members : Json.Members) : Requirement where
  holds := ∃ value, members.get? "relationship" = some value ∧ value ≠ .null
  failure := .of (.missingKey directive "relationship")

def relationNameRequirements (directive : String) (members : Json.Members) : List Requirement :=
  namesSomething directive members ::
    (given? members "relationship").toList.map fun value =>
      meaningful (directive ++ ".relationship") (wantedValue "a relation name" value) IsName value

/-- There is no load in a load; the failure tells the relation. -/
def notNested (members : Json.Members) (relation : String) : Requirement where
  holds := members.get? "load" = none
  failure := .of (.unsupportedNesting relation)

def Load.memberRequirements (directive : String) (members : Json.Members) : List Requirement :=
  relationNameRequirements directive members ++
    ((((given? members "relationship").bind nonBlank?).toList.map (notNested members)) ++
      (entryRequirements directive members "key" (wantedValue "a column name") IsName ++
        (entryRequirements directive members "direction" (wantedValue "ASC or DESC") IsDirection ++
          entryRequirements directive members "limit" (wantedValue "a positive integer") IsLimit)))

/-- A nested load is an object, and then a load directive of its own. -/
def nestedLoadRequirements : Json.Value → List Requirement
  | .object nested => Load.memberRequirements "where_has.load" nested
  | other =>
      [{ holds := ∃ nested, other = .object nested
         failure := .of (.invalidInput "where_has.load"
           (wantedKind "a load directive object" other)) }]

def Existence.memberRequirements (members : Json.Members) : List Requirement :=
  relationNameRequirements "where_has" members ++
    (entryRequirements "where_has" members "operator" (wantedValue "eq, gt or lt") IsOperator ++
      (entryRequirements "where_has" members "value" (wantedKind "a scalar") IsOperand ++
        (given? members "load").toList.flatMap nestedLoadRequirements))

/-- A directive is an object. -/
def objectRequirements (directive : String) (inner : Json.Members → List Requirement) :
    Json.Value → List Requirement
  | .object members => inner members
  | other =>
      [{ holds := ∃ members, other = .object members
         failure := .of (.invalidInput directive (wantedKind "an object" other)) }]

/-- A list is one of three kinds of values, and its items are looked at one after the other. -/
def listRequirements (directive listed : String) (each : Json.Value → List Requirement) :
    Json.Value → List Requirement
  | .null => []
  | .array items => items.flatMap each
  | .object members => each (.object members)
  | other =>
      [{ holds :=
           other = .null ∨ (∃ items, other = .array items) ∨ ∃ members, other = .object members
         failure := .of (.invalidInput directive (wantedKind listed other)) }]

end Requirements

/-- A reader accepts exactly what its grammar describes, and rejects the rest as the first
requirement says that is not met. -/
structure Decides {α : Type} (read : Json.Value → Outcome α) (Grammar : Json.Value → α → Prop)
    (requirements : Json.Value → List Requirement) : Prop where
  accepts : ∀ value a, read value = .ok a ↔ Grammar value a
  depends : ∀ value, Requirement.Depends (read value) (requirements value)

/-! ## Values are read by their meanings -/

theorem string?_eq_some_iff {value : Json.Value} {text : String} :
    value.string? = some text ↔ value = .string text := by
  cases value <;> simp [Json.Value.string?]

theorem nonBlank?_eq_some_iff {value : Json.Value} {name : String} :
    nonBlank? value = some name ↔ IsName value name := by
  constructor
  · intro named
    obtain ⟨text, found, trimmed⟩ := Option.bind_eq_some_iff.1 named
    simp only [Option.ite_none_left_eq_some, Option.some.injEq] at trimmed
    obtain ⟨visible, rfl⟩ := trimmed
    exact ⟨text, string?_eq_some_iff.1 found, rfl, visible⟩
  · rintro ⟨text, rfl, rfl, visible⟩
    rw [nonBlank?_string, if_neg visible]

theorem direction?_eq_some_iff {value : Json.Value} {direction : String} :
    Load.direction? value = some direction ↔ IsDirection value direction := by
  rw [Load.direction?, Option.map_eq_some_iff]
  constructor
  · rintro ⟨text, found, rfl⟩
    exact ⟨text, string?_eq_some_iff.1 found, rfl⟩
  · rintro ⟨text, rfl, rfl⟩
    exact ⟨text, rfl, rfl⟩

theorem digits?_eq_some_iff {digits : List Char} {n : Nat} :
    Decimal.digits? digits = some n ↔
      digits ≠ [] ∧ (∀ c ∈ digits, c.isDigit = true) ∧ Nat.ofDigitChars 10 digits 0 = n := by
  rw [Decimal.digits?, Option.ite_none_right_eq_some, Option.some.injEq, List.all_eq_true,
    and_assoc]

/-- What is found is kept if it passes a test. -/
theorem bind_ite_eq_some_iff {α : Type} {found : Option α} {passes : α → Prop}
    [DecidablePred passes] {a : α} :
    (found.bind fun b => if passes b then some b else none) = some a ↔
      found = some a ∧ passes a := by
  rw [Option.bind_eq_some_iff]
  constructor
  · rintro ⟨b, same, kept⟩
    obtain ⟨passed, whole⟩ := Option.ite_none_right_eq_some.1 kept
    cases whole
    exact ⟨same, passed⟩
  · rintro ⟨same, passed⟩
    exact ⟨a, same, if_pos passed⟩

theorem naturalUpTo?_eq_some_iff {bound n : Nat} {text : String} :
    Decimal.naturalUpTo? bound text = some n ↔ IsNumeral text n ∧ n ≤ bound := by
  unfold Decimal.naturalUpTo? IsNumeral
  generalize text.toList = cs
  refine bind_ite_eq_some_iff.trans (and_congr_left fun _ => ?_)
  rw [digits?_eq_some_iff]
  -- What is left of the text when a plus sign is taken off.
  split
  next rest =>
    constructor
    · intro numeral
      exact ⟨rest, .inr rfl, numeral⟩
    · rintro ⟨digits, same, nonempty, each, value⟩
      rcases same with rfl | same
      · exact absurd (each '+' List.mem_cons_self) (by decide)
      · cases same
        exact ⟨nonempty, each, value⟩
  next notPlus =>
    constructor
    · intro numeral
      exact ⟨cs, .inl rfl, numeral⟩
    · rintro ⟨digits, same, numeral⟩
      rcases same with rfl | same
      · exact numeral
      · exact absurd same (notPlus digits)

theorem toUInt64?_eq_some_iff {n : Json.Number} {word : UInt64} :
    n.toUInt64? = some word ↔ ∃ isWord, n = .integer word.toNat isWord := by
  cases n with
  | double x finite =>
      constructor
      · exact nofun
      · rintro ⟨_, same⟩
        cases same
  | integer k isWord =>
      simp only [Json.Number.toUInt64?, Option.ite_none_right_eq_some, Option.some.injEq]
      constructor
      · rintro ⟨natural, rfl⟩
        obtain ⟨m, rfl⟩ := Int.eq_ofNat_of_zero_le natural
        have small : m < 2 ^ 64 := by
          have := isWord.2
          omega
        have same : (UInt64.ofNat m).toNat = m := UInt64.toNat_ofNat_of_lt' small
        simp only [Int.toNat_natCast, same]
        exact ⟨isWord, trivial⟩
      · rintro ⟨_, same⟩
        cases same
        exact ⟨Int.natCast_nonneg _, by simp⟩

theorem map_ofNat_naturalUpTo?_iff {text : String} {word : UInt64} :
    (Decimal.naturalUpTo? 0xFFFFFFFFFFFFFFFF text).map UInt64.ofNat = some word ↔
      IsNumeral text word.toNat := by
  rw [Option.map_eq_some_iff]
  constructor
  · rintro ⟨n, found, rfl⟩
    obtain ⟨numeral, bounded⟩ := naturalUpTo?_eq_some_iff.1 found
    have same : (UInt64.ofNat n).toNat = n := UInt64.toNat_ofNat_of_lt' (Nat.lt_succ_of_le bounded)
    rwa [same]
  · intro numeral
    have bounded : word.toNat ≤ 0xFFFFFFFFFFFFFFFF := by
      have := word.toNat_lt
      omega
    exact ⟨word.toNat, naturalUpTo?_eq_some_iff.2 ⟨numeral, bounded⟩, by simp⟩

theorem limit?_eq_some_iff {value : Json.Value} {limit : UInt64} :
    Load.limit? value = some limit ↔ IsLimit value limit := by
  have positive : 0 < limit.toNat ↔ limit ≠ 0 := by
    rw [Nat.pos_iff_ne_zero, ne_eq, ne_eq, ← UInt64.toNat_inj]
    rfl
  have kept : ∀ found : Option UInt64,
      (found.bind fun limit => if limit = 0 then none else some limit) = some limit ↔
        0 < limit.toNat ∧ found = some limit := by
    intro found
    rw [positive, and_comm]
    simp only [← ite_not (_ = _) (some _) none]
    exact bind_ite_eq_some_iff
  cases value with
  | number n =>
      refine (kept n.toUInt64?).trans (and_congr_right fun _ => ?_)
      rw [toUInt64?_eq_some_iff]
      constructor
      · rintro ⟨isWord, rfl⟩
        exact .inl ⟨isWord, rfl⟩
      · rintro (⟨isWord, same⟩ | ⟨text, same, _⟩)
        · exact ⟨isWord, Json.Value.number.inj same⟩
        · cases same
  | string s =>
      refine (kept _).trans (and_congr_right fun _ => ?_)
      rw [map_ofNat_naturalUpTo?_iff]
      constructor
      · intro numeral
        exact .inr ⟨s, rfl, numeral⟩
      · rintro (⟨isWord, same⟩ | ⟨text, same, numeral⟩)
        · cases same
        · cases same
          exact numeral
  | _ =>
      refine (kept none).trans (and_congr_right fun _ => ?_)
      constructor
      · exact nofun
      · rintro (⟨isWord, same⟩ | ⟨text, same, _⟩) <;> cases same

theorem operator_eq_some_iff {value : Json.Value} {operator : Operator} :
    value.string?.map Operator.ofText = some operator ↔ IsOperator value operator := by
  rw [Option.map_eq_some_iff]
  constructor
  · rintro ⟨text, found, rfl⟩
    exact ⟨text, string?_eq_some_iff.1 found, rfl⟩
  · rintro ⟨text, rfl, rfl⟩
    exact ⟨text, rfl, rfl⟩

/-- Null is no operand, but a missing one. -/
theorem operand_eq_some_iff {value : Json.Value} (present : value ≠ .null)
    {operand : Option Parameter} :
    (Existence.scalar? value).map some = some operand ↔ IsOperand value operand := by
  cases value with
  | null => exact absurd rfl present
  | _ => simp [Existence.scalar?, IsOperand, eq_comm]

/-! ## Entries are read as the grammar says -/

section Entries

variable {α : Type} {directive name : String} {members : Json.Members} {value : Json.Value}
  {mismatch : Json.Value → String} {fallback a : α} {read : Json.Value → Option α}
  {Means : Json.Value → α → Prop}

theorem given?_eq_some_iff :
    given? members name = some value ↔ members.get? name = some value ∧ value ≠ .null := by
  unfold given?
  split
  next null =>
    rw [null]
    constructor
    · exact nofun
    · rintro ⟨same, present⟩
      exact absurd (Option.some.inj same).symm present
  next notNull =>
    constructor
    · intro found
      refine ⟨found, ?_⟩
      rintro rfl
      exact notNull found
    · exact fun found => found.1

theorem given?_eq_none_iff :
    given? members name = none ↔ members.get? name = none ∨ members.get? name = some .null := by
  unfold given?
  split
  next null => simp [null]
  next notNull =>
    constructor
    · exact .inl
    · rintro (missing | null)
      · exact missing
      · exact absurd null notNull

theorem entry_eq_ok_iff (reads : ∀ value ≠ .null, ∀ a, read value = some a ↔ Means value a) :
    entry directive members name mismatch fallback read = .ok a ↔
      Entry members name fallback Means a := by
  unfold entry
  split
  next absent =>
    constructor
    · rintro ⟨⟩
      rcases given?_eq_none_iff.1 absent with missing | null
      · exact .missing missing
      · exact .null null
    · rintro (missing | null | ⟨present, some, _⟩)
      · rfl
      · rfl
      · rw [given?_eq_some_iff.2 ⟨present, some⟩] at absent
        cases absent
  next value found =>
    obtain ⟨present, notNull⟩ := given?_eq_some_iff.1 found
    -- Only what is given has to be read.
    have meant : Entry members name fallback Means a ↔ read value = some a := by
      rw [reads value notNull a]
      constructor
      · rintro (missing | null | ⟨also, _, means⟩)
        · exact nomatch present.symm.trans missing
        · exact absurd (Option.some.inj (present.symm.trans null)) notNull
        · cases present.symm.trans also
          exact means
      · exact .given present notNull
    rw [meant]
    cases read value with
    | some b => simp
    | none => simp [Failure.raise]

theorem depends_entry (reads : ∀ value ≠ .null, ∀ a, read value = some a ↔ Means value a) :
    Requirement.Depends (entry directive members name mismatch fallback read)
      (entryRequirements directive members name mismatch Means) := by
  unfold entry entryRequirements
  cases found : given? members name with
  | none => exact .nothing fallback
  | some value =>
      have notNull := (given?_eq_some_iff.1 found).2
      simp only [Option.toList_some, List.map_singleton]
      cases readable : read value with
      | none =>
          refine .error (.here ?_)
          rintro ⟨a, means⟩
          exact nomatch readable.symm.trans ((reads value notNull a).2 means)
      | some a =>
          refine .ok (List.forall_mem_singleton.2 ?_)
          exact ⟨a, (reads value notNull a).1 readable⟩

theorem relationName_eq_ok_iff {relation : String} :
    relationName directive members = .ok relation ↔
      (given? members "relationship").bind nonBlank? = some relation := by
  unfold relationName
  cases given? members "relationship" with
  | none => simp [Failure.raise]
  | some value =>
      cases named : nonBlank? value <;> simp [named, Failure.raise]

theorem names_iff {relation : String} :
    Names members relation ↔ (given? members "relationship").bind nonBlank? = some relation := by
  rw [Option.bind_eq_some_iff]
  constructor
  · rintro ⟨value, present, named⟩
    refine ⟨value, given?_eq_some_iff.2 ⟨present, ?_⟩, nonBlank?_eq_some_iff.2 named⟩
    rintro rfl
    obtain ⟨text, same, _⟩ := named
    cases same
  · rintro ⟨value, found, named⟩
    exact ⟨value, (given?_eq_some_iff.1 found).1, nonBlank?_eq_some_iff.1 named⟩

theorem depends_relationName :
    Requirement.Depends (relationName directive members)
      (relationNameRequirements directive members) := by
  unfold relationName relationNameRequirements
  cases found : given? members "relationship" with
  | none =>
      refine .error (.here ?_)
      rintro ⟨value, present, notNull⟩
      exact nomatch found.symm.trans (given?_eq_some_iff.2 ⟨present, notNull⟩)
  | some value =>
      have given : (namesSomething directive members).holds :=
        ⟨value, given?_eq_some_iff.1 found⟩
      simp only [Option.toList_some, List.map_singleton]
      cases named : nonBlank? value with
      | none =>
          refine .error (.later given (.here ?_))
          rintro ⟨name, isName⟩
          exact nomatch named.symm.trans (nonBlank?_eq_some_iff.2 isName)
      | some name =>
          refine .ok (List.forall_mem_cons.2 ⟨given, List.forall_mem_singleton.2 ?_⟩)
          exact ⟨name, nonBlank?_eq_some_iff.1 named⟩

end Entries

/-! ## Loads -/

namespace Load

theorem ofMembers_eq_ok_iff_written {directive : String} {members : Json.Members} {load : Load} :
    ofMembers directive members = .ok load ↔ Written members load := by
  rw [ofMembers_eq_ok_iff, relationName_eq_ok_iff, ← names_iff,
    entry_eq_ok_iff fun _ _ _ => nonBlank?_eq_some_iff,
    entry_eq_ok_iff fun _ _ _ => direction?_eq_some_iff,
    entry_eq_ok_iff fun _ _ _ => limit?_eq_some_iff]
  constructor
  · rintro ⟨relation, flat, key, direction, limit⟩
    exact { relation, flat, key, direction, limit }
  · rintro ⟨relation, flat, key, direction, limit⟩
    exact ⟨relation, flat, key, direction, limit⟩

theorem depends_ofMembers (directive : String) (members : Json.Members) :
    Requirement.Depends (ofMembers directive members) (memberRequirements directive members) := by
  unfold ofMembers memberRequirements
  refine depends_relationName.bind fun relation named => ?_
  rw [relationName_eq_ok_iff.1 named, Option.toList_some, List.map_singleton]
  cases nested : members.get? "load" with
  | none =>
      refine .of_met (List.forall_mem_singleton.2 nested) ?_
      refine (depends_entry fun _ _ _ => nonBlank?_eq_some_iff).bind fun key _ => ?_
      refine (depends_entry fun _ _ _ => direction?_eq_some_iff).bind fun direction _ => ?_
      exact (depends_entry fun _ _ _ => limit?_eq_some_iff).map
  | some load =>
      refine .error (.here fun flat => ?_)
      exact nomatch nested.symm.trans flat

/-- A load in a load is refused as soon as the outer one has a name, whatever else they hold. -/
theorem ofMembers_of_nested {members : Json.Members} {relation : String}
    (names : Names members relation) (nested : members.get? "load" ≠ none) (directive : String) :
    ofMembers directive members = Failure.raise (.unsupportedNesting relation) := by
  have named : relationName directive members = .ok relation :=
    relationName_eq_ok_iff.2 (names_iff.1 names)
  have there : (members.get? "load").isSome = true := Option.isSome_iff_ne_none.2 nested
  simp only [ofMembers, named, there, if_true]
  rfl

end Load

/-! ## Existence directives -/

namespace Existence

theorem nestedLoad_eq_ok_iff_entry {members : Json.Members} {load : Option Load} :
    nestedLoad members = .ok load ↔ Entry members "load" none IsNestedLoad load := by
  rw [nestedLoad_eq_ok_iff]
  constructor
  · rintro (⟨absent, rfl⟩ | ⟨nested, inner, found, made, rfl⟩)
    · rcases given?_eq_none_iff.1 absent with missing | null
      · exact .missing missing
      · exact .null null
    · obtain ⟨present, notNull⟩ := given?_eq_some_iff.1 found
      exact .given present notNull ⟨nested, inner, rfl, Load.ofMembers_eq_ok_iff_written.1 made, rfl⟩
  · rintro (missing | null | ⟨present, notNull, means⟩)
    · exact .inl ⟨given?_eq_none_iff.2 (.inl missing), rfl⟩
    · exact .inl ⟨given?_eq_none_iff.2 (.inr null), rfl⟩
    · obtain ⟨nested, inner, rfl, written, rfl⟩ := means
      exact .inr ⟨nested, inner, given?_eq_some_iff.2 ⟨present, notNull⟩,
        Load.ofMembers_eq_ok_iff_written.2 written, rfl⟩

theorem ofMembers_eq_ok_iff_written {members : Json.Members} {existence : Existence} :
    ofMembers members = .ok existence ↔ Written members existence := by
  rw [ofMembers_eq_ok_iff, relationName_eq_ok_iff, ← names_iff,
    entry_eq_ok_iff fun _ _ _ => operator_eq_some_iff,
    entry_eq_ok_iff fun _ present _ => operand_eq_some_iff present, nestedLoad_eq_ok_iff_entry]
  constructor
  · rintro ⟨relation, operator, value, negated, load⟩
    exact { relation, operator, value, negated := negated.symm, load }
  · rintro ⟨relation, operator, value, negated, load⟩
    exact ⟨relation, operator, value, negated.symm, load⟩

theorem depends_nestedLoad (members : Json.Members) :
    Requirement.Depends (nestedLoad members)
      ((given? members "load").toList.flatMap nestedLoadRequirements) := by
  unfold nestedLoad
  cases given? members "load" with
  | none => exact .nothing none
  | some value =>
      rw [Option.toList_some, List.flatMap_singleton]
      cases value with
      | object nested => exact (Load.depends_ofMembers "where_has.load" nested).map
      | _ =>
          refine .error (.here ?_)
          rintro ⟨nested, same⟩
          cases same

theorem depends_ofMembers (members : Json.Members) :
    Requirement.Depends (ofMembers members) (memberRequirements members) := by
  unfold ofMembers memberRequirements
  refine depends_relationName.bind fun relation _ => ?_
  refine (depends_entry fun _ _ _ => operator_eq_some_iff).bind fun operator _ => ?_
  refine (depends_entry fun _ present _ => operand_eq_some_iff present).bind fun value _ => ?_
  exact (depends_nestedLoad members).map

/-- Nothing is nested any deeper than a load in an existence directive. -/
theorem ofMembers_of_nested {members nested : Json.Members} {relation inner : String}
    {operator : Operator} {value : Option Parameter} (names : Names members relation)
    (compared : Entry members "operator" .equal IsOperator operator)
    (bound : Entry members "value" none IsOperand value)
    (found : members.get? "load" = some (.object nested)) (namesInner : Names nested inner)
    (deeper : nested.get? "load" ≠ none) :
    ofMembers members = Failure.raise (.unsupportedNesting inner) := by
  have named : relationName "where_has" members = .ok relation :=
    relationName_eq_ok_iff.2 (names_iff.1 names)
  have loads : nestedLoad members = Failure.raise (.unsupportedNesting inner) := by
    rw [nestedLoad, given?_of_get? found nofun]
    simp only [Load.ofMembers_of_nested namesInner deeper]
    rfl
  rw [ofMembers, named, (entry_eq_ok_iff fun _ _ _ => operator_eq_some_iff).2 compared,
    (entry_eq_ok_iff fun _ present _ => operand_eq_some_iff present).2 bound, loads]
  rfl

end Existence

/-! ## Objects and lists -/

section Objects

variable {α : Type} {directive listed : String} {read : Json.Value → Outcome α}

theorem decides_object {readMembers : Json.Members → Outcome α}
    {Written : Json.Members → α → Prop} {requirements : Json.Members → List Requirement}
    (object : ∀ members, read (.object members) = readMembers members)
    (others : ∀ value, (∀ members, value ≠ .object members) →
      read value = Failure.raise (.invalidInput directive (wantedKind "an object" value)))
    (accepts : ∀ members a, readMembers members = .ok a ↔ Written members a)
    (depends : ∀ members, Requirement.Depends (readMembers members) (requirements members)) :
    Decides read (Object Written) (objectRequirements directive requirements) := by
  constructor
  case accepts =>
    intro value a
    by_cases isObject : ∃ members, value = .object members
    · obtain ⟨members, rfl⟩ := isObject
      rw [object, accepts]
      constructor
      · exact fun written => ⟨members, rfl, written⟩
      · rintro ⟨_, same, written⟩
        cases same
        exact written
    · rw [others value fun members same => isObject ⟨members, same⟩]
      constructor
      · exact nofun
      · rintro ⟨members, same, _⟩
        exact absurd ⟨members, same⟩ isObject
  case depends =>
    intro value
    unfold objectRequirements
    split
    next members =>
      rw [object]
      exact depends members
    next notObject =>
      rw [others _ notObject]
      refine .error (.here ?_)
      rintro ⟨members, same⟩
      exact notObject members same

variable {Grammar : Json.Value → α → Prop} {requirements : Json.Value → List Requirement}
  (item : Decides read Grammar requirements)

include item

theorem directives_eq_ok_iff {value : Json.Value} {as : List α} :
    directives directive listed read value = .ok as ↔ Listed Grammar value as := by
  cases value with
  | null =>
      constructor
      · rintro ⟨⟩
        exact .nothing
      · rintro ⟨⟩
        rfl
  | array items =>
      have each : directives directive listed read (.array items) = .ok as ↔
          List.Forall₂ Grammar items as := by
        have same : (fun value a => read value = .ok a) = Grammar := by
          funext value a
          exact propext (item.accepts value a)
        rw [← same]
        exact Outcome.mapM_eq_ok_iff
      rw [each]
      constructor
      · exact .array
      · rintro (_ | _ | each)
        exact each
  | object members =>
      have only : directives directive listed read (.object members) = .ok as ↔
          ∃ a, Grammar (.object members) a ∧ [a] = as := by
        refine Outcome.bind_eq_ok_iff.trans (exists_congr fun a => ?_)
        rw [item.accepts, Outcome.pure_eq_ok_iff]
      rw [only]
      constructor
      · rintro ⟨a, made, rfl⟩
        exact .alone made
      · rintro (_ | made)
        exact ⟨_, made, rfl⟩
  | _ =>
      constructor
      · exact nofun
      · exact nofun

theorem depends_directives (value : Json.Value) :
    Requirement.Depends (directives directive listed read value)
      (listRequirements directive listed requirements value) := by
  cases value with
  | null => exact .nothing []
  | array items => exact .mapM fun value _ => item.depends value
  | object members => exact (item.depends (.object members)).map
  | _ =>
      refine .error (.here ?_)
      rintro (same | ⟨items, same⟩ | ⟨members, same⟩) <;> cases same

theorem decides_directives :
    Decides (directives directive listed read) (Listed Grammar)
      (listRequirements directive listed requirements) :=
  ⟨fun _ _ => directives_eq_ok_iff item, depends_directives item⟩

end Objects

/-! ## The grammar decides -/

namespace Load

def requirements : Json.Value → List Requirement :=
  objectRequirements "load" (memberRequirements "load")

theorem decides_ofJson : Decides ofJson (Object Written) requirements := by
  refine decides_object (fun _ => rfl) (fun value notObject => ?_)
    (fun _ _ => ofMembers_eq_ok_iff_written) (depends_ofMembers "load")
  cases value with
  | object members => exact absurd rfl (notObject members)
  | _ => rfl

end Load

namespace Existence

def requirements : Json.Value → List Requirement :=
  objectRequirements "where_has" memberRequirements

theorem decides_ofJson : Decides ofJson (Object Written) requirements := by
  refine decides_object (fun _ => rfl) (fun value notObject => ?_)
    (fun _ _ => ofMembers_eq_ok_iff_written) depends_ofMembers
  cases value with
  | object members => exact absurd rfl (notObject members)
  | _ => rfl

end Existence

/-- **Directives are accepted by their grammar**, alone and in lists, with the result that it
describes, and are rejected as the first requirement says that is not met.  A load in a load is
always rejected, and this is said once the outer one has a name; so is a load in the load of an
existence directive, and this is said once the rest of the directive is right. -/
theorem directives_decided :
    Decides Load.ofJson (Object Load.Written) Load.requirements ∧
    Decides Existence.ofJson (Object Existence.Written) Existence.requirements ∧
    Decides Load.listOfJson (Listed (Object Load.Written))
      (listRequirements "load" "a list of load directives" Load.requirements) ∧
    Decides Existence.listOfJson (Listed (Object Existence.Written))
      (listRequirements "where_has" "a list of existence directives" Existence.requirements) ∧
    (∀ (members : Json.Members) (relation : String), Names members relation →
      members.get? "load" ≠ none →
        Load.ofJson (.object members) = Failure.raise (.unsupportedNesting relation)) ∧
    ∀ (members nested : Json.Members) (inner : String),
      members.get? "load" = some (.object nested) → Names nested inner →
      nested.get? "load" ≠ none →
        (∀ existence, Existence.ofJson (.object members) ≠ .ok existence) ∧
        ∀ (relation : String) (operator : Operator) (value : Option Parameter),
          Names members relation → Entry members "operator" .equal IsOperator operator →
          Entry members "value" none IsOperand value →
            Existence.ofJson (.object members) = Failure.raise (.unsupportedNesting inner) := by
  refine ⟨Load.decides_ofJson, Existence.decides_ofJson, decides_directives Load.decides_ofJson,
    decides_directives Existence.decides_ofJson, ?nested, ?deeper⟩
  case nested =>
    intro members relation names nested
    exact Load.ofMembers_of_nested names nested "load"
  case deeper =>
    intro members nested inner found namesInner deeper
    have refused : ∀ relation operator value, Names members relation →
        Entry members "operator" .equal IsOperator operator →
        Entry members "value" none IsOperand value →
          Existence.ofJson (.object members) = Failure.raise (.unsupportedNesting inner) :=
      fun relation operator value names compared bound =>
        Existence.ofMembers_of_nested names compared bound found namesInner deeper
    refine ⟨fun existence accepted => ?_, refused⟩
    obtain ⟨_, same, written⟩ := (Existence.decides_ofJson.accepts _ _).1 accepted
    cases same
    rw [refused _ _ _ written.relation written.operator written.value] at accepted
    cases accepted

/-- A load that is written loosely, and one that is nested too deep: that there is an entry for it
is enough, even if it is null, and the wrong limit next to it is not looked at. -/
theorem directives_decided_posts :
    let loose : Json.Members :=
      [("relationship", .string " posts "), ("key", .null), ("limit", .string " +03 ")]
    let nested : Json.Members :=
      [("relationship", .string "comments"), ("limit", .bool false), ("load", .null)]
    let members : Json.Members := [("load", .object nested), ("relationship", .string "posts")]
    Load.ofJson (.object loose) = .ok { relation := "posts", limit := 3 } ∧
      nested.get? "load" ≠ none ∧
      Existence.ofJson (.object members) = Failure.raise (.unsupportedNesting "comments") := by
  intro loose nested members
  obtain ⟨load, _, _, _, _, deeper⟩ := directives_decided
  have three : IsNumeral (Text.trim " +03 ") 3 :=
    ⟨['0', '3'], .inr (by decide +kernel), by decide, List.all_eq_true.1 (by decide), by decide⟩
  have posts : IsName (.string " posts ") "posts" := ⟨_, rfl, by decide +kernel, by decide⟩
  have written : Load.Written loose { relation := "posts", limit := 3 } :=
    { relation := ⟨_, rfl, posts⟩
      flat := rfl
      key := .null rfl
      direction := .missing rfl
      limit := .given rfl nofun ⟨by decide, .inr ⟨_, rfl, three⟩⟩ }
  have outer : Names members "posts" := ⟨_, rfl, _, rfl, by decide +kernel, by decide⟩
  have comments : Names nested "comments" := ⟨_, rfl, _, rfl, by decide +kernel, by decide⟩
  have refused := (deeper members nested "comments" rfl comments nofun).2 "posts" .equal none outer
    (.missing rfl) (.missing rfl)
  exact ⟨(load.accepts _ _).2 ⟨loose, rfl, written⟩, nofun, refused⟩

end RequestQuery.Request
