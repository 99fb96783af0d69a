/-
# Match keys tell keys apart

What a scalar stands for as a key is its text, or its exact value if it is a number (`key?`).  A
match key is a text, so it could be the same for two keys or differ for one.  The first never
happens.  The second happens to numbers only, and only where an integer and an integral double are
too large to be matched with each other (`matchKey?_eq_iff`).

A number has the text of a whole number for its match key, or that of a double
(`numberKey_eq_integer_iff`).  No double is written like a whole number, so these do not meet.
-/
import RequestQuery.Plan.MatchKey
import RequestQuery.Proofs.Decimal.Text
import RequestQuery.Proofs.Json.Number

namespace RequestQuery

set_option autoImplicit false

namespace Json.Number

/-! ## The value of a number -/

def value : Number → ℚ
  | .integer n _ => n
  | .double x _ => (Decimal.Binary64.ofFloat x).value

/-- Is it written with a point or an exponent? -/
def isDouble : Number → Bool
  | .integer .. => false
  | .double .. => true

end Json.Number

namespace Plan

open Json (Number)

/-! ## The match key of a number -/

/-- An integer that no signed word holds has no small double. -/
theorem integralBound_le {n i : Int} {isWord : Json.IsWord n}
    (large : (Number.integer n isWord).toInt64? = none)
    (whole : (Decimal.Binary64.ofFloat (Number.integer n isWord).toFloat).toInt? = some i) :
    ¬i.natAbs < integralBound := by
  obtain ⟨exponent, mantissa⟩ := Number.large_toFloat large
  generalize Decimal.Binary64.ofFloat (Number.integer n isWord).toFloat = x at *
  obtain ⟨e, raised⟩ := Int.eq_ofNat_of_zero_le (show 0 ≤ x.exponent by omega)
  have natural : ((i.natAbs : Nat) : ℚ) = (x.mantissa * 2 ^ e : Nat) := by
    rw [← Decimal.Binary64.magnitude_of_ofNat raised, ← Decimal.Binary64.abs_value,
      Decimal.Binary64.toInt?_eq_some_iff.1 whole, Nat.cast_natAbs, Int.cast_abs]
  have product : i.natAbs = x.mantissa * 2 ^ e := by exact_mod_cast natural
  have power : 2 ^ 11 ≤ 2 ^ e := Nat.pow_le_pow_right (by decide) (by omega)
  have bound : 2 ^ 52 * 2 ^ 11 ≤ x.mantissa * 2 ^ e := Nat.mul_le_mul mantissa power
  rw [product, integralBound]
  omega

/-- An integer has its own text, however large it is. -/
theorem numberKey_integer (n : Int) (isWord : Json.IsWord n) :
    numberKey (.integer n isWord) = Decimal.integer n := by
  unfold numberKey
  split
  next word =>
    exact congrArg Decimal.integer (Number.integer.inj (Number.ofInt64_of_toInt64? word))
  next large =>
    split
    next whole => exact if_neg (integralBound_le large whole)
    next => rfl

/-- A double has the text of a whole number if it is one below the bound. -/
theorem numberKey_double (x : Float) (finite : x.isFinite = true) :
    (∃ i : Int, (Decimal.Binary64.ofFloat x).value = i ∧ i.natAbs < integralBound ∧
        numberKey (.double x finite) = Decimal.integer i) ∨
      (∀ i : Int, (Decimal.Binary64.ofFloat x).value = i → integralBound ≤ i.natAbs) ∧
        numberKey (.double x finite) = Decimal.double x := by
  simp only [← Decimal.Binary64.toInt?_eq_some_iff]
  simp only [numberKey, Number.toInt64?, Number.toFloat]
  cases (Decimal.Binary64.ofFloat x).toInt? with
  | none =>
      refine .inr ⟨?_, rfl⟩
      rintro j ⟨⟩
  | some i =>
      by_cases small : i.natAbs < integralBound
      · exact .inl ⟨i, rfl, small, if_pos small⟩
      · refine .inr ⟨?_, if_neg small⟩
        rintro j ⟨⟩
        exact Nat.le_of_not_lt small

theorem double_ne_integer (x : Float) (i : Int) : Decimal.double x ≠ Decimal.integer i :=
  fun same => Decimal.doubleChars_ne_integerChars x i (String.ofList_injective same)

/-- Which numbers have the match key of a whole number. -/
theorem numberKey_eq_integer_iff {n : Number} {i : Int} :
    numberKey n = Decimal.integer i ↔
      n.value = i ∧ (n.isDouble = true → i.natAbs < integralBound) := by
  cases n with
  | integer k isWord =>
      rw [numberKey_integer, Decimal.integer_injective.eq_iff, Number.value, Int.cast_inj]
      exact (and_iff_left Bool.false_ne_true.elim).symm
  | double x finite =>
      change _ ↔ (Decimal.Binary64.ofFloat x).value = i ∧ (true = true → _)
      rcases numberKey_double x finite with ⟨j, value, small, key⟩ | ⟨large, key⟩
      · rw [key, value, Decimal.integer_injective.eq_iff, Int.cast_inj]
        exact ⟨fun same => ⟨same, fun _ => same ▸ small⟩, And.left⟩
      · rw [key]
        refine iff_of_false (double_ne_integer x i) ?_
        rintro ⟨value, small⟩
        exact absurd (small rfl) (large i value).not_gt

/-- What has no such match key is a double, and has its text. -/
theorem numberKey_cases (n : Number) :
    (∃ i, numberKey n = Decimal.integer i) ∨
      ∃ x finite, n = .double x finite ∧ numberKey n = Decimal.double x ∧ n.value ≠ 0 := by
  cases n with
  | integer k isWord => exact .inl ⟨k, numberKey_integer k isWord⟩
  | double x finite =>
      rcases numberKey_double x finite with ⟨i, -, -, key⟩ | ⟨large, key⟩
      · exact .inl ⟨i, key⟩
      · refine .inr ⟨x, finite, rfl, key, fun zero => ?_⟩
        exact absurd (large 0 (zero.trans Int.cast_zero.symm)) (by decide)

theorem double_eq_iff {x y : Float} (some : (Decimal.Binary64.ofFloat x).value ≠ 0) :
    Decimal.double x = Decimal.double y ↔
      (Decimal.Binary64.ofFloat x).value = (Decimal.Binary64.ofFloat y).value := by
  constructor
  · exact fun same => Decimal.value_eq_of_doubleChars_eq (String.ofList_injective same)
  · exact fun same => congrArg String.ofList (Decimal.doubleChars_eq_of_value_eq same some)

theorem imp_iff_eq_or {first second : Bool} {small : Prop} (given : first = true → small) :
    (second = true → small) ↔ first = second ∨ small := by
  cases first <;> cases second <;> simp_all

/-- Numbers with the same match key have the same value.  Those of the same value have different
ones only where an integer meets a double and both are too large. -/
theorem numberKey_eq_iff {m n : Number} :
    numberKey m = numberKey n ↔
      m.value = n.value ∧ (m.isDouble = n.isDouble ∨ |m.value| < integralBound) := by
  have bound (i : Int) : |(i : ℚ)| < integralBound ↔ i.natAbs < integralBound := by
    rw [← Int.cast_abs, ← Nat.cast_natAbs, Nat.cast_lt]
  rcases numberKey_cases m with ⟨i, keyM⟩ | ⟨x, finite, rfl, keyM, some⟩
  · obtain ⟨valueM, smallM⟩ := numberKey_eq_integer_iff.1 keyM
    rw [keyM, eq_comm, numberKey_eq_integer_iff, valueM, bound, eq_comm]
    exact and_congr_right fun _ => imp_iff_eq_or smallM
  · rcases numberKey_cases n with ⟨j, keyN⟩ | ⟨y, finite', rfl, keyN, -⟩
    · obtain ⟨valueN, smallN⟩ := numberKey_eq_integer_iff.1 keyN
      rw [keyN, numberKey_eq_integer_iff, valueN]
      refine and_congr_right fun valueM => ?_
      rw [valueM, bound, eq_comm (b := n.isDouble)]
      exact imp_iff_eq_or smallN
    · rw [keyM, keyN, double_eq_iff some]
      exact (and_iff_left (.inl rfl)).symm

/-! ## The match key of a value -/

/-- What a scalar other than null stands for as a key. -/
inductive Key where
  | text (s : String)
  | number (q : ℚ)

def key? : Json.Value → Option Key
  | .null | .array _ | .object _ => none
  | .bool b => some (.number (if b then 1 else 0))
  | .number n => some (.number n.value)
  | .string s => some (.text s)

/-- Is it a number that is written with a point or an exponent? -/
def isDouble : Json.Value → Bool
  | .number n => n.isDouble
  | _ => false

/-- A value that has a match key is a text, or has that of a number. -/
theorem matchKey?_cases (v : Json.Value) :
    (matchKey? v = none ∧ key? v = none) ∨
      (∃ s, matchKey? v = some ("s:" ++ s) ∧ key? v = some (.text s)) ∨
      ∃ n : Number, matchKey? v = some (numberKey n) ∧ key? v = some (.number n.value) ∧
        isDouble v = n.isDouble := by
  cases v with
  | null | array _ | object _ => exact .inl ⟨rfl, rfl⟩
  | bool b =>
      have isWord : Json.IsWord b.toInt := by cases b <;> decide
      refine .inr (.inr ⟨.integer b.toInt isWord, ?_, ?_, rfl⟩)
      · rw [numberKey_integer]
        cases b <;> rfl
      · cases b <;> simp [key?, Number.value]
  | number n => exact .inr (.inr ⟨n, rfl, rfl, rfl⟩)
  | string s => exact .inr (.inl ⟨s, rfl, rfl⟩)

theorem numberKey_ne_text (n : Number) (s : String) : numberKey n ≠ "s:" ++ s := by
  have starts : Decimal.StartsNumber (numberKey n).toList := by
    rcases numberKey_cases n with ⟨i, key⟩ | ⟨x, finite, -, key, -⟩
    · rw [key, Decimal.integer, String.toList_ofList]
      exact Decimal.startsNumber_integerChars i
    · rw [key, Decimal.double, String.toList_ofList]
      exact Decimal.startsNumber_doubleChars x
  intro same
  obtain ⟨first, rest, text, sign⟩ := starts
  rw [same, String.toList_append] at text
  cases text
  revert sign
  decide

/-- **Match keys tell keys apart.**  Values have the same match key exactly if they stand for the
same key, except for an integer and a double of the same value that are too large. -/
theorem matchKey?_eq_iff (a b : Json.Value) :
    (∃ k, matchKey? a = some k ∧ matchKey? b = some k) ↔
      ∃ key, key? a = some key ∧ key? b = some key ∧
        (isDouble a = isDouble b ∨ ∀ q, key = .number q → |q| < integralBound) := by
  rcases matchKey?_cases a with ⟨noneA, otherA⟩ | ⟨s, textA, keyA⟩ | ⟨m, textA, keyA, doubleA⟩
  · simp [noneA, otherA]
  · rcases matchKey?_cases b with ⟨noneB, otherB⟩ | ⟨t, textB, keyB⟩ | ⟨n, textB, keyB, doubleB⟩
    · simp [noneB, otherB]
    · simp [textA, textB, keyA, keyB]
    · have apart := numberKey_ne_text n s
      simp [textA, textB, keyA, keyB, apart]
  · rcases matchKey?_cases b with ⟨noneB, otherB⟩ | ⟨t, textB, keyB⟩ | ⟨n, textB, keyB, doubleB⟩
    · simp [noneB, otherB]
    · have apart := numberKey_ne_text m t
      simp [textA, textB, keyA, keyB, apart.symm]
    · rw [textA, textB, keyA, keyB, doubleA, doubleB]
      simp only [Option.some.injEq, exists_eq_left', Key.number.injEq, forall_eq']
      rw [eq_comm, numberKey_eq_iff, eq_comm (a := m.value)]

/-- At the bound an integer and a double are the same key, but are not matched. -/
theorem not_matched_at_bound :
    ¬((∃ k, matchKey? (.number (.integer 9000000000000000 (by decide))) = some k ∧
          matchKey? (.number (.double 9000000000000000.0 (by decide +kernel))) = some k) ↔
        ∃ key, key? (.number (.integer 9000000000000000 (by decide))) = some key ∧
          key? (.number (.double 9000000000000000.0 (by decide +kernel))) = some key) := by
  have whole : (Decimal.Binary64.ofFloat 9000000000000000.0).value = (9000000000000000 : Int) :=
    Decimal.Binary64.toInt?_eq_some_iff.1 (by decide +kernel)
  intro claimed
  obtain ⟨k, integer, double⟩ := claimed.2 ⟨_, rfl, congrArg (some ∘ Key.number) whole⟩
  have same := Option.some.inj (integer.trans double.symm)
  rw [numberKey_integer, eq_comm, numberKey_eq_integer_iff] at same
  exact absurd (same.2 rfl) (by decide)

end Plan

end RequestQuery
