/-
# The shortest decimal rounds to its double

A number rounds to a double if it is nearer to it than to both of its neighbours; half-way between
two of them it rounds to the one with the even mantissa (`Rounds`).  So a number rounds to one
double only (`Canonical.magnitude_eq_of_rounds`).

Seventeen digits are always enough for a number that rounds to a given double.  The decimals with so
many digits lie closer together than the ends of its interval, so one of the two around it is inside
(`rounds_floor_or_next`).  The search for fewer digits looks at the same two candidates, and what
it finds has been checked.
-/
import RequestQuery.Decimal.Shortest
import RequestQuery.Proofs.Decimal.Binary64

namespace RequestQuery.Decimal

set_option autoImplicit false

/-! ## Exact comparison -/

namespace Scaled

def value (s : Scaled) : ℚ :=
  s.count * 10 ^ s.ten * 2 ^ s.two

/-- What two numbers are counted in to compare them. -/
def unit (a b : Scaled) : ℚ :=
  10 ^ min a.ten b.ten * 2 ^ min a.two b.two

theorem unit_pos (a b : Scaled) : 0 < unit a b := by
  unfold unit
  positivity

theorem value_eq_mul {s : Scaled} {ten two : Int} (fits : ten ≤ s.ten ∧ two ≤ s.two) :
    s.value = ((s.count * 10 ^ (s.ten - ten).toNat * 2 ^ (s.two - two).toNat : Nat) : ℚ) *
      (10 ^ ten * 2 ^ two) := by
  have tens : (10 : ℚ) ^ s.ten = 10 ^ (s.ten - ten).toNat * 10 ^ ten := by
    rw [← zpow_natCast, ← zpow_add₀ (by norm_num)]
    congr 1
    omega
  have twos : (2 : ℚ) ^ s.two = 2 ^ (s.two - two).toNat * 2 ^ two := by
    rw [← zpow_natCast, ← zpow_add₀ (by norm_num)]
    congr 1
    omega
  rw [value, tens, twos]
  push_cast
  ring

theorem value_align (a b : Scaled) :
    a.value = (a.align b).1 * unit a b ∧ b.value = (a.align b).2 * unit a b :=
  ⟨value_eq_mul ⟨min_le_left _ _, min_le_left _ _⟩,
    value_eq_mul ⟨min_le_right _ _, min_le_right _ _⟩⟩

theorem le_iff {a b : Scaled} : a.le b = true ↔ a.value ≤ b.value := by
  obtain ⟨first, second⟩ := value_align a b
  rw [first, second, mul_le_mul_iff_left₀ (unit_pos a b), Nat.cast_le, le, decide_eq_true_iff]

theorem lt_iff {a b : Scaled} : a.lt b = true ↔ a.value < b.value := by
  obtain ⟨first, second⟩ := value_align a b
  rw [first, second, mul_lt_mul_iff_left₀ (unit_pos a b), Nat.cast_lt, lt, decide_eq_true_iff]

end Scaled

namespace Binary64

/-! ## The interval of a double -/

/-- Does a number round to the magnitude of a double? -/
def Rounds (x : Binary64) (d : ℚ) : Prop :=
  if x.mantissa % 2 = 0 then x.magnitude - x.gap / 2 ≤ d ∧ d ≤ x.magnitude + x.ulp / 2
  else x.magnitude - x.gap / 2 < d ∧ d < x.magnitude + x.ulp / 2

theorem rounds_of_lt {x : Binary64} {d : ℚ} (low : x.magnitude - x.gap / 2 < d)
    (high : d < x.magnitude + x.ulp / 2) : x.Rounds d := by
  unfold Rounds
  split
  · exact ⟨low.le, high.le⟩
  · exact ⟨low, high⟩

theorem Rounds.le {x : Binary64} {d : ℚ} (rounds : x.Rounds d) :
    x.magnitude - x.gap / 2 ≤ d ∧ d ≤ x.magnitude + x.ulp / 2 := by
  unfold Rounds at rounds
  split at rounds
  · exact rounds
  · exact ⟨rounds.1.le, rounds.2.le⟩

/-- Only an even mantissa takes the ends of its interval. -/
theorem Rounds.even {x : Binary64} {d : ℚ} (rounds : x.Rounds d)
    (atEnd : d = x.magnitude - x.gap / 2 ∨ d = x.magnitude + x.ulp / 2) : x.mantissa % 2 = 0 := by
  by_contra odd
  rw [Rounds, if_neg odd] at rounds
  rcases atEnd with rfl | rfl
  · exact lt_irrefl _ rounds.1
  · exact lt_irrefl _ rounds.2

theorem value_quarters (x : Binary64) (n : Nat) : (x.quarters n).value = n * (x.ulp / 4) := by
  have two : (2 : ℚ) ≠ 0 := by norm_num
  rw [quarters, Scaled.value, zpow_zero, mul_one, zpow_sub₀ two, ulp]
  norm_num

theorem value_whole (x : Binary64) : (x.quarters (4 * x.mantissa)).value = x.magnitude := by
  rw [value_quarters, magnitude]
  push_cast
  ring

/-- The test of a candidate is about the interval. -/
theorem roundsTo_iff {x : Binary64} (some : x.mantissa ≠ 0) {n : Nat} {k : Int} :
    x.roundsTo n k = true ↔ x.Rounds (n * 10 ^ k) := by
  have low : (x.quarters (4 * x.mantissa - if x.lowest then 1 else 2)).value =
      x.magnitude - x.gap / 2 := by
    have four : (if x.lowest then 1 else 2) ≤ 4 * x.mantissa := by
      split <;> omega
    rw [value_quarters, Nat.cast_sub four, magnitude, gap]
    cases x.lowest <;> simp <;> ring
  have high : (x.quarters (4 * x.mantissa + 2)).value = x.magnitude + x.ulp / 2 := by
    rw [value_quarters, magnitude]
    push_cast
    ring
  have candidate : (⟨n, k, 0⟩ : Scaled).value = n * 10 ^ k := by
    simp [Scaled.value]
  by_cases even : x.mantissa % 2 = 0
  · simp only [roundsTo, Rounds, if_pos even, Bool.and_eq_true, Scaled.le_iff, low, high, candidate]
  · simp only [roundsTo, Rounds, if_neg even, Bool.and_eq_true, Scaled.lt_iff, low, high, candidate]

namespace Canonical

variable {x y : Binary64} (cx : x.Canonical) (cy : y.Canonical)

include cx cy

/-- Intervals meet in one point at most, and then one of the mantissas is odd. -/
theorem not_rounds_of_lt (less : x.magnitude < y.magnitude) {d : ℚ} (rx : x.Rounds d) :
    ¬y.Rounds d := by
  intro ry
  have up := cx.add_ulp_le cy less
  have down := cx.add_gap_le cy less
  have below := rx.le.2
  have above := ry.le.1
  have step : y.magnitude = x.magnitude + x.ulp := by linarith
  have gaps : y.gap = x.ulp := by linarith
  have evenBelow : x.mantissa % 2 = 0 := rx.even (.inr (by linarith))
  have evenAbove : y.mantissa % 2 = 0 := ry.even (.inl (by linarith))
  have positive := x.ulp_pos
  cases lowest : y.lowest with
  | true =>
      rw [gap, if_pos lowest] at gaps
      have last : (x.mantissa : ℚ) + 1 = (2 ^ 53 : Nat) := by
        refine mul_right_cancel₀ positive.ne' ?_
        rw [magnitude, magnitude, (cy.lowest_iff.1 lowest).1] at step
        push_cast at step ⊢
        linarith
      have : x.mantissa + 1 = 2 ^ 53 := by exact_mod_cast last
      omega
  | false =>
      rw [gap, lowest, if_neg Bool.false_ne_true] at gaps
      have next : (y.mantissa : ℚ) = x.mantissa + 1 := by
        refine mul_right_cancel₀ positive.ne' ?_
        rw [magnitude, magnitude, gaps] at step
        linarith
      have : y.mantissa = x.mantissa + 1 := by exact_mod_cast next
      omega

/-- A number rounds to no two doubles. -/
theorem magnitude_eq_of_rounds {d : ℚ} (rx : x.Rounds d) (ry : y.Rounds d) :
    x.magnitude = y.magnitude := by
  rcases lt_trichotomy x.magnitude y.magnitude with less | same | more
  · exact absurd ry (cx.not_rounds_of_lt cy less rx)
  · exact same
  · exact absurd rx (cy.not_rounds_of_lt cx more ry)

end Canonical

/-! ## Seventeen digits are enough -/

theorem pow_length_toDigits_le {n : Nat} (some : n ≠ 0) :
    10 ^ ((Nat.toDigits 10 n).length - 1) ≤ n := by
  by_contra less
  by_cases one : (Nat.toDigits 10 n).length - 1 = 0
  · rw [one, pow_zero] at less
    omega
  · have shorter := (Nat.length_toDigits_le_iff (by decide) (Nat.pos_of_ne_zero one)).2
      (Nat.lt_of_not_le less)
    omega

theorem lt_pow_length_toDigits (n : Nat) : n < 10 ^ (Nat.toDigits 10 n).length :=
  (Nat.length_toDigits_le_iff (by decide) Nat.length_toDigits_pos).1 le_rfl

theorem pow_sub_one_length_le {n : Nat} (some : n ≠ 0) :
    (10 : ℚ) ^ (((Nat.toDigits 10 n).length : Int) - 1) ≤ n := by
  have natural : ((Nat.toDigits 10 n).length : Int) - 1 =
      (((Nat.toDigits 10 n).length - 1 : Nat) : Int) := by
    have := @Nat.length_toDigits_pos 10 n
    omega
  rw [natural, zpow_natCast]
  exact_mod_cast pow_length_toDigits_le some

/-- The decimal exponent is not too great. -/
theorem pow_decimalExponent_le {x : Binary64} (some : x.mantissa ≠ 0) :
    (10 : ℚ) ^ x.decimalExponent ≤ x.magnitude := by
  cases exponent : x.exponent with
  | ofNat e =>
      simp only [decimalExponent, exponent, Nat.pow_eq, magnitude_of_ofNat exponent]
      exact pow_sub_one_length_le (Nat.mul_ne_zero some (by positivity))
  | negSucc e =>
      have scaled := magnitude_of_negSucc exponent
      have positive : 0 < 2 ^ (e + 1) := by positivity
      have denominator : (0 : ℚ) < (2 ^ (e + 1) : Nat) := by exact_mod_cast positive
      simp only [decimalExponent, exponent, Nat.pow_eq]
      split
      next atLeastOne =>
        have quotient : x.mantissa / 2 ^ (e + 1) ≠ 0 :=
          (Nat.div_pos atLeastOne positive).ne'
        refine (pow_sub_one_length_le quotient).trans ?_
        refine le_of_mul_le_mul_right ?_ denominator
        rw [scaled]
        exact_mod_cast Nat.div_mul_le_self _ _
      next small =>
        -- The denominator is less than one more digit makes up for.
        have bound := lt_pow_length_toDigits ((2 ^ (e + 1) + x.mantissa - 1) / x.mantissa - 1)
        generalize (Nat.toDigits 10 ((2 ^ (e + 1) + x.mantissa - 1) / x.mantissa - 1)).length = n
          at bound ⊢
        have ceiling : 2 ^ (e + 1) ≤ x.mantissa * 10 ^ n := by
          have division := Nat.div_add_mod (2 ^ (e + 1) + x.mantissa - 1) x.mantissa
          have remainder := Nat.mod_lt (2 ^ (e + 1) + x.mantissa - 1) (Nat.pos_of_ne_zero some)
          calc 2 ^ (e + 1) ≤ x.mantissa * ((2 ^ (e + 1) + x.mantissa - 1) / x.mantissa) := by omega
            _ ≤ x.mantissa * 10 ^ n := Nat.mul_le_mul_left _ (by omega)
        have power : (0 : ℚ) < 10 ^ n := by positivity
        have wide : ((2 ^ (e + 1) : Nat) : ℚ) ≤ x.magnitude * 10 ^ n * (2 ^ (e + 1) : Nat) := by
          rw [mul_right_comm, scaled]
          exact_mod_cast ceiling
        have one : 1 ≤ x.magnitude * 10 ^ n := le_of_mul_le_mul_right (by linarith) denominator
        rw [Int.negOfNat_eq, Int.ofNat_eq_natCast, zpow_neg, zpow_natCast]
        exact (inv_le_iff_one_le_mul₀ power).2 one

/-- The two candidates for digits down to a power of ten lie around the value. -/
theorem floorAt_bounds (x : Binary64) (k : Int) :
    x.floorAt k * (10 : ℚ) ^ k ≤ x.magnitude ∧
      x.magnitude < ((x.floorAt k + 1 : Nat) : ℚ) * 10 ^ k := by
  have one : (⟨1, k, 0⟩ : Scaled).value = 10 ^ k := by simp [Scaled.value]
  obtain ⟨whole, power⟩ := Scaled.value_align (x.quarters (4 * x.mantissa)) ⟨1, k, 0⟩
  have positive := Scaled.unit_pos (x.quarters (4 * x.mantissa)) ⟨1, k, 0⟩
  rw [value_whole] at whole
  rw [one] at power
  unfold floorAt
  generalize (x.quarters (4 * x.mantissa)).align ⟨1, k, 0⟩ = sides at whole power ⊢
  generalize Scaled.unit (x.quarters (4 * x.mantissa)) ⟨1, k, 0⟩ = unit at whole power positive
  have divisor : 0 < sides.2 := by
    refine Nat.pos_of_ne_zero fun zero => ?_
    rw [zero, Nat.cast_zero, zero_mul] at power
    have : (0 : ℚ) < 10 ^ k := by positivity
    linarith
  have below : ((sides.1 / sides.2 : Nat) : ℚ) * sides.2 ≤ sides.1 := by
    exact_mod_cast Nat.div_mul_le_self _ _
  have above : (sides.1 : ℚ) < ((sides.1 / sides.2 + 1 : Nat) : ℚ) * sides.2 := by
    exact_mod_cast Nat.lt_mul_of_div_lt (Nat.lt_succ_self _) divisor
  simp only [whole, power, ← mul_assoc]
  constructor
  · gcongr
  · gcongr

/-- Decimals of seventeen digits lie closer together than the ends of the interval. -/
theorem pow_lt_interval {x : Binary64} (canonical : x.Canonical) (some : x.mantissa ≠ 0) :
    (10 : ℚ) ^ (x.decimalExponent - 16) < x.gap / 2 + x.ulp / 2 := by
  have first := pow_decimalExponent_le some
  have shifted : (10 : ℚ) ^ x.decimalExponent = 10 ^ (x.decimalExponent - 16) * 10 ^ 16 := by
    rw [← zpow_natCast, ← zpow_add₀ (by norm_num)]
    congr 1
    omega
  rw [shifted, magnitude] at first
  have positive := x.ulp_pos
  cases lowest : x.lowest with
  | true =>
      rw [(canonical.lowest_iff.1 lowest).1] at first
      rw [gap, if_pos lowest]
      norm_num at first
      linarith
  | false =>
      have bits : (x.mantissa : ℚ) ≤ 2 ^ 53 := by exact_mod_cast canonical.bits.le
      have bounded : (x.mantissa : ℚ) * x.ulp ≤ 2 ^ 53 * x.ulp := by gcongr
      rw [gap, lowest, if_neg Bool.false_ne_true]
      norm_num at first bounded
      linarith

/-- One of the two candidates with seventeen digits rounds to the double. -/
theorem rounds_floor_or_next {x : Binary64} (canonical : x.Canonical) (some : x.mantissa ≠ 0) :
    let k := x.decimalExponent - 16
    x.Rounds (x.floorAt k * 10 ^ k) ∨ x.Rounds ((x.floorAt k + 1 : Nat) * 10 ^ k) := by
  intro k
  obtain ⟨below, above⟩ := x.floorAt_bounds k
  have close : (10 : ℚ) ^ k < x.gap / 2 + x.ulp / 2 := pow_lt_interval canonical some
  have gap := x.gap_pos
  have ulp := x.ulp_pos
  by_cases inside : x.magnitude - x.gap / 2 < x.floorAt k * 10 ^ k
  · exact .inl (rounds_of_lt inside (by linarith))
  · refine .inr (rounds_of_lt (by linarith) ?_)
    push_cast
    linarith

/-! ## The search -/

/-- What is found for some number of digits has been tested. -/
theorem roundsTo_of_atDigits? {x : Binary64} {n : Nat} {s : Scientific}
    (found : x.atDigits? n = some s) : x.roundsTo s.digits s.exponent = true := by
  simp only [atDigits?] at found
  split at found
  next both next =>
    cases found
    split
    · exact both
    · exact next
  next both _ =>
    cases found
    exact both
  next _ next =>
    cases found
    exact next
  next => cases found

theorem atDigits?_seventeen {x : Binary64} (canonical : x.Canonical) (some : x.mantissa ≠ 0) :
    x.atDigits? 17 ≠ none := by
  intro none
  have either := rounds_floor_or_next canonical some
  simp only [← roundsTo_iff some] at either
  simp only [atDigits?] at none
  split at none
  · cases none
  · cases none
  · cases none
  next below above =>
    rcases either with inside | inside
    · exact nomatch inside.symm.trans below
    · exact nomatch inside.symm.trans above

/-- **The shortest decimal rounds to its double.** -/
theorem exists_shortest {x : Binary64} (canonical : x.Canonical) (some : x.mantissa ≠ 0) :
    ∃ s : Scientific, x.shortest = s.significand ∧ x.Rounds (s.digits * 10 ^ s.exponent) := by
  have isFound : (List.range 17).findSome? (fun n => x.atDigits? (n + 1)) ≠ none := by
    intro none
    rw [List.findSome?_eq_none_iff] at none
    exact atDigits?_seventeen canonical some (none 16 (by decide))
  obtain ⟨s, found⟩ := Option.ne_none_iff_exists'.1 isFound
  obtain ⟨n, _, at?⟩ := List.exists_of_findSome?_eq_some found
  refine ⟨s, ?_, (roundsTo_iff some).1 (roundsTo_of_atDigits? at?)⟩
  rw [shortest, if_neg some, found]

end Binary64

end RequestQuery.Decimal
