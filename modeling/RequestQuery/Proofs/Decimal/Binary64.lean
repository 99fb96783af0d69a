/-
# The doubles on the line of numbers

The magnitude of a double is `mantissa · 2 ^ exponent`, a rational number.  What is read off the
bits is canonical: a mantissa has 53 bits unless the exponent is the least one.  So the exponents
tell how close the doubles lie.  The next one above a double is one unit of its last place away, and
so is the next one below, except below the lowest double of an exponent, where it is half of that
(`Canonical.add_ulp_le`, `Canonical.add_gap_le`).  In particular doubles of the same value are the
same up to the sign of zero (`Canonical.eq_of_value_eq`).
-/
import Mathlib.Algebra.Order.Field.Power
import Mathlib.Data.Nat.Cast.Field
import Mathlib.Data.Rat.Floor
import Mathlib.Tactic.FieldSimp
import Mathlib.Tactic.Linarith
import Mathlib.Tactic.NormNum
import Mathlib.Tactic.Positivity
import Mathlib.Tactic.Ring
import RequestQuery.Decimal.Binary64

namespace RequestQuery.Decimal

set_option autoImplicit false

namespace Binary64

/-! ## Values -/

/-- One unit of the last place. -/
def ulp (x : Binary64) : ℚ :=
  (2 : ℚ) ^ x.exponent

def magnitude (x : Binary64) : ℚ :=
  x.mantissa * x.ulp

def value (x : Binary64) : ℚ :=
  if x.negative then -x.magnitude else x.magnitude

/-- How far the next double below is away. -/
def gap (x : Binary64) : ℚ :=
  if x.lowest then x.ulp / 2 else x.ulp

theorem ulp_pos (x : Binary64) : 0 < x.ulp := by
  unfold ulp
  positivity

theorem magnitude_nonneg (x : Binary64) : 0 ≤ x.magnitude :=
  mul_nonneg (Nat.cast_nonneg _) x.ulp_pos.le

theorem magnitude_eq_zero_iff {x : Binary64} : x.magnitude = 0 ↔ x.mantissa = 0 := by
  rw [magnitude, mul_eq_zero, Nat.cast_eq_zero, or_iff_left x.ulp_pos.ne']

theorem gap_pos (x : Binary64) : 0 < x.gap := by
  have := x.ulp_pos
  unfold gap
  split <;> linarith

theorem gap_le_ulp (x : Binary64) : x.gap ≤ x.ulp := by
  have := x.ulp_pos
  unfold gap
  split <;> linarith

theorem abs_value (x : Binary64) : |x.value| = x.magnitude := by
  have := x.magnitude_nonneg
  unfold value
  split
  · rw [abs_neg, abs_of_nonneg this]
  · exact abs_of_nonneg this

/-! ## What is read off the bits -/

/-- Mantissa and exponent are those that a double is kept with. -/
structure Canonical (x : Binary64) : Prop where
  bits : x.mantissa < 2 ^ 53
  least : -1074 ≤ x.exponent
  normal : x.exponent = -1074 ∨ 2 ^ 52 ≤ x.mantissa
  lowest_iff : x.lowest = true ↔ x.mantissa = 2 ^ 52 ∧ -1074 < x.exponent

theorem canonical_ofBits (bits : Nat) : (ofBits bits).Canonical := by
  have fraction : bits % Nat.pow 2 52 < 2 ^ 52 := Nat.mod_lt _ (by decide)
  constructor
  case bits =>
    simp only [ofBits]
    split
    · omega
    · change 2 ^ 52 + _ < 2 ^ 53
      omega
  case least =>
    simp only [ofBits]
    split <;> omega
  case normal =>
    simp only [ofBits]
    split
    · exact .inl rfl
    · exact .inr (Nat.le_add_right _ _)
  case lowest_iff =>
    simp only [ofBits, decide_eq_true_iff]
    split
    · omega
    · change _ ↔ 2 ^ 52 + _ = 2 ^ 52 ∧ _
      omega

/-! ## Integers -/

theorem magnitude_of_ofNat {x : Binary64} {e : Nat} (whole : x.exponent = .ofNat e) :
    x.magnitude = (x.mantissa * 2 ^ e : Nat) := by
  rw [magnitude, ulp, whole]
  push_cast
  rfl

theorem magnitude_of_negSucc {x : Binary64} {e : Nat} (broken : x.exponent = .negSucc e) :
    x.magnitude * (2 ^ (e + 1) : Nat) = x.mantissa := by
  rw [magnitude, ulp, broken, zpow_negSucc]
  push_cast
  field_simp

theorem value_of_magnitude {x : Binary64} {n : Nat} (natural : x.magnitude = n) :
    x.value = (((if x.negative then -1 else 1) * n : Int) : ℚ) := by
  rw [value, natural]
  split <;> push_cast <;> ring

/-- A double has a whole number for its value exactly if it is read as that. -/
theorem toInt?_eq_some_iff {x : Binary64} {i : Int} : x.toInt? = some i ↔ x.value = i := by
  cases exponent : x.exponent with
  | ofNat e =>
      simp only [toInt?, exponent, Option.some.injEq]
      rw [value_of_magnitude (magnitude_of_ofNat exponent), Int.cast_inj]
      rfl
  | negSucc e =>
      have scaled := magnitude_of_negSucc exponent
      have positive : (0 : ℚ) < (2 ^ (e + 1) : Nat) := by positivity
      simp only [toInt?, exponent, Nat.pow_eq]
      split
      next even =>
        have natural : x.magnitude = (x.mantissa / 2 ^ (e + 1) : Nat) := by
          rw [Nat.cast_div (Nat.dvd_of_mod_eq_zero even) positive.ne', eq_div_iff positive.ne',
            scaled]
        rw [Option.some.injEq, value_of_magnitude natural, Int.cast_inj]
      next odd =>
        refine iff_of_false nofun fun same => odd ?_
        have natural : x.magnitude = (i.natAbs : ℚ) := by
          rw [← abs_value, same, Nat.cast_natAbs, Int.cast_abs]
        rw [natural] at scaled
        have product : i.natAbs * 2 ^ (e + 1) = x.mantissa := by exact_mod_cast scaled
        rw [← product, Nat.mul_mod_left]

/-! ## Neighbours -/

theorem ulp_le_half {x y : Binary64} (below : x.exponent < y.exponent) : x.ulp ≤ y.ulp / 2 := by
  have two : (2 : ℚ) ≠ 0 := by norm_num
  have next : (2 : ℚ) ^ (x.exponent + 1) ≤ y.ulp :=
    zpow_le_zpow_right₀ (by norm_num) (by omega)
  rw [zpow_add_one₀ two] at next
  exact (le_div_iff₀ (by norm_num)).2 next

theorem ulp_eq {x y : Binary64} (same : x.exponent = y.exponent) : x.ulp = y.ulp := by
  rw [ulp, ulp, same]

namespace Canonical

variable {x y : Binary64} (cx : x.Canonical) (cy : y.Canonical)

include cx cy

/-- A smaller exponent stays below the doubles with a greater one. -/
theorem add_half_le (below : x.exponent < y.exponent) :
    x.magnitude + y.ulp / 2 ≤ 2 ^ 52 * y.ulp ∧ 2 ^ 52 ≤ y.mantissa := by
  have low := cx.least
  refine ⟨?_, cy.normal.resolve_left (by omega)⟩
  have few : (x.mantissa : ℚ) ≤ 2 ^ 53 - 1 := by
    have bits : (x.mantissa : ℚ) + 1 ≤ 2 ^ 53 := by exact_mod_cast cx.bits
    linarith
  calc x.magnitude + y.ulp / 2 = x.mantissa * x.ulp + y.ulp / 2 := rfl
    _ ≤ (2 ^ 53 - 1) * (y.ulp / 2) + y.ulp / 2 := by
        gcongr
        · exact x.ulp_pos.le
        · exact ulp_le_half below
    _ = 2 ^ 52 * y.ulp := by ring

theorem magnitude_add_half_le (below : x.exponent < y.exponent) :
    x.magnitude + y.ulp / 2 ≤ y.magnitude := by
  obtain ⟨bound, normal⟩ := cx.add_half_le cy below
  have many : (2 : ℚ) ^ 52 ≤ y.mantissa := by exact_mod_cast normal
  refine bound.trans ?_
  unfold magnitude
  gcongr
  exact y.ulp_pos.le

theorem exponent_le_of_lt (less : x.magnitude < y.magnitude) : x.exponent ≤ y.exponent := by
  by_contra above
  have bound := cy.magnitude_add_half_le cx (by omega)
  have := x.ulp_pos
  linarith

/-- The next double above is at least one unit of the last place away. -/
theorem add_ulp_le (less : x.magnitude < y.magnitude) : x.magnitude + x.ulp ≤ y.magnitude := by
  rcases (cx.exponent_le_of_lt cy less).lt_or_eq with below | same
  · have bound := cx.magnitude_add_half_le cy below
    have small := ulp_le_half below
    linarith
  · rw [magnitude, magnitude, ← ulp_eq same, mul_lt_mul_iff_left₀ x.ulp_pos, Nat.cast_lt] at less
    have more : (x.mantissa : ℚ) + 1 ≤ y.mantissa := by exact_mod_cast less
    calc x.magnitude + x.ulp = ((x.mantissa : ℚ) + 1) * x.ulp := by rw [magnitude]; ring
      _ ≤ y.mantissa * x.ulp := by
          gcongr
          exact x.ulp_pos.le
      _ = y.magnitude := by rw [magnitude, ulp_eq same]

/-- The next double below is at least the gap away. -/
theorem add_gap_le (less : x.magnitude < y.magnitude) : x.magnitude + y.gap ≤ y.magnitude := by
  rcases (cx.exponent_le_of_lt cy less).lt_or_eq with below | same
  · obtain ⟨bound, normal⟩ := cx.add_half_le cy below
    cases lowest : y.lowest with
    | true =>
        rw [gap, if_pos lowest]
        exact cx.magnitude_add_half_le cy below
    | false =>
        -- The mantissa is not the least one, so there is room for one more unit.
        have notLeast : y.mantissa ≠ 2 ^ 52 := by
          intro least
          have low := cx.least
          rw [cy.lowest_iff.2 ⟨least, by omega⟩] at lowest
          cases lowest
        have more : (2 : ℚ) ^ 52 + 1 ≤ y.mantissa := by
          have : 2 ^ 52 + 1 ≤ y.mantissa := by omega
          exact_mod_cast this
        have positive := y.ulp_pos
        rw [gap, lowest, if_neg Bool.false_ne_true]
        calc x.magnitude + y.ulp ≤ (2 ^ 52 + 1) * y.ulp := by linarith
          _ ≤ y.mantissa * y.ulp := by gcongr
  · have next := cx.add_ulp_le cy less
    rw [ulp_eq same] at next
    have small := y.gap_le_ulp
    linarith

/-- The same magnitude has only one mantissa and exponent. -/
theorem eq_of_magnitude_eq (same : x.magnitude = y.magnitude) :
    x.mantissa = y.mantissa ∧ x.exponent = y.exponent := by
  rcases lt_trichotomy x.exponent y.exponent with below | equal | above
  · have bound := cx.magnitude_add_half_le cy below
    have := y.ulp_pos
    linarith
  · rw [magnitude, magnitude, ulp_eq equal, mul_left_inj' y.ulp_pos.ne', Nat.cast_inj] at same
    exact ⟨same, equal⟩
  · have bound := cy.magnitude_add_half_le cx above
    have := x.ulp_pos
    linarith

/-- Doubles with the same value other than zero are the same. -/
theorem eq_of_value_eq (same : x.value = y.value) (some : x.value ≠ 0) : x = y := by
  have positive : 0 < x.magnitude := by
    rw [← abs_value]
    exact abs_pos.2 some
  have magnitudes : x.magnitude = y.magnitude := by
    rw [← abs_value, ← abs_value, same]
  obtain ⟨mantissas, exponents⟩ := cx.eq_of_magnitude_eq cy magnitudes
  have signs : x.negative = y.negative := by
    rw [value, value, ← magnitudes] at same
    cases negative : x.negative <;> cases other : y.negative
    all_goals simp only [negative, other, if_true, if_false, Bool.false_eq_true] at same
    · rfl
    · linarith
    · linarith
    · rfl
  have places : x.lowest = y.lowest := by
    rw [Bool.eq_iff_iff, cx.lowest_iff, cy.lowest_iff, mantissas, exponents]
  obtain ⟨_, _, _, _⟩ := x
  obtain ⟨_, _, _, _⟩ := y
  simp only at mantissas exponents signs places
  subst mantissas exponents signs places
  rfl

end Canonical

end Binary64

end RequestQuery.Decimal
