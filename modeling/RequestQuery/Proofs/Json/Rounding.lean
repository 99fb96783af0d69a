/-
# Integers that become doubles

An integer that no signed word can hold becomes the double that it rounds to (`rounds_ofNat`).
Rounding shifts the mantissa until it has the bits of a double.  The bit that is shifted out last
and whether any bit before it was set tell where the number lies between the two nearest mantissas
(`nearest_roundedMantissa`).  The rounded mantissa can have one bit too many; it is then a power of
two, and one more shift loses nothing.
-/
import RequestQuery.Proofs.Decimal.Shortest
import RequestQuery.Proofs.Json.Number

namespace RequestQuery.Json

set_option autoImplicit false

namespace Binary64

open Float.Model
open Float.Model.UnpackedFloat (Sign ExtendedMantissa packComponents)

/-! ## The bits that are shifted out -/

theorem shiftRight_succ (m k : Nat) :
    ExtendedMantissa.mk m false false >>> (k + 1) =
      ⟨m / 2 ^ (k + 1), m / 2 ^ k % 2 != 0, m % 2 ^ k != 0⟩ := by
  induction k with
  | zero =>
      change ExtendedMantissa.mk (m / 2) (m % 2 != 0) false = _
      rw [zero_add, pow_one, pow_zero, Nat.div_one, Nat.mod_one]
      rfl
  | succ k ih =>
      have bits : m % 2 ^ (k + 1) = m % 2 ^ k + 2 ^ k * (m / 2 ^ k % 2) := Nat.mod_pow_succ
      have power := Nat.two_pow_pos k
      have sticky : (m / 2 ^ k % 2 != 0 || m % 2 ^ k != 0) = (m % 2 ^ (k + 1) != 0) := by
        have none : m % 2 ^ (k + 1) = 0 ↔ m % 2 ^ k = 0 ∧ m / 2 ^ k % 2 = 0 := by
          rw [bits, Nat.add_eq_zero_iff, Nat.mul_eq_zero, or_iff_right power.ne']
        rw [Bool.eq_iff_iff, Bool.or_eq_true, bne_iff_ne, bne_iff_ne, bne_iff_ne, ne_eq, ne_eq, ne_eq,
          none, not_and_or, or_comm]
      change ((ExtendedMantissa.mk m false false) >>> (k + 1)).shiftRightOne = _
      rw [ih, ExtendedMantissa.shiftRightOne, Nat.div_div_eq_div_mul, ← pow_succ, sticky]

/-- The rounded mantissa is the nearest one, and of two equally near ones the even one. -/
structure Nearest (m k r : Nat) : Prop where
  low : r * 2 ^ (k + 1) ≤ m + 2 ^ k
  high : m ≤ r * 2 ^ (k + 1) + 2 ^ k
  even : r * 2 ^ (k + 1) = m + 2 ^ k ∨ m = r * 2 ^ (k + 1) + 2 ^ k → r % 2 = 0

theorem nearest_roundedMantissa (m k : Nat) :
    Nearest m k (ExtendedMantissa.mk m false false >>> (k + 1)).roundedMantissa := by
  have power := Nat.two_pow_pos k
  have whole : m = m / 2 ^ (k + 1) * 2 ^ (k + 1) + (m % 2 ^ k + 2 ^ k * (m / 2 ^ k % 2)) := by
    rw [← Nat.mod_pow_succ, Nat.div_add_mod']
  have rest : m % 2 ^ k < 2 ^ k := Nat.mod_lt _ power
  have double : (2 : Nat) ^ (k + 1) = 2 * 2 ^ k := by rw [pow_succ, mul_comm]
  rw [shiftRight_succ]
  generalize m / 2 ^ (k + 1) = q at whole ⊢
  have next : (q + 1) * 2 ^ (k + 1) = q * 2 ^ (k + 1) + 2 ^ (k + 1) := Nat.succ_mul _ _
  rcases Nat.mod_two_eq_zero_or_one (m / 2 ^ k) with zero | one
  · -- The last bit is not set: the number is nearer to the mantissa below it.
    have down : (⟨q, m / 2 ^ k % 2 != 0, m % 2 ^ k != 0⟩ : ExtendedMantissa).roundedMantissa = q := by
      rw [zero]
      cases m % 2 ^ k != 0 <;> rfl
    rw [zero, mul_zero] at whole
    rw [down]
    constructor <;> omega
  · rw [one, mul_one] at whole
    by_cases middle : m % 2 ^ k = 0
    · have even : (⟨q, m / 2 ^ k % 2 != 0, m % 2 ^ k != 0⟩ : ExtendedMantissa).roundedMantissa =
          q + q % 2 := by
        rw [one, middle]
        rfl
      rw [even]
      rcases Nat.mod_two_eq_zero_or_one q with isEven | isOdd
      · rw [isEven, add_zero]
        constructor <;> omega
      · rw [isOdd]
        constructor <;> omega
    · have up : (⟨q, m / 2 ^ k % 2 != 0, m % 2 ^ k != 0⟩ : ExtendedMantissa).roundedMantissa =
          q + 1 := by
        rw [one, bne_iff_ne.2 middle]
        rfl
      rw [up]
      constructor <;> omega

/-- Trailing zeros of the number are not looked at. -/
theorem Nearest.of_shifted {n k r : Nat} (j : Nat) (nearest : Nearest (n * 2 ^ j) (k + j) r) :
    Nearest n k r := by
  have power := Nat.two_pow_pos j
  have unit : r * 2 ^ (k + j + 1) = r * 2 ^ (k + 1) * 2 ^ j := by ring
  have half : 2 ^ (k + j) = 2 ^ k * 2 ^ j := pow_add 2 k j
  obtain ⟨low, high, even⟩ := nearest
  rw [unit, half, ← Nat.add_mul] at low high even
  rw [← Nat.add_mul] at even
  exact ⟨Nat.le_of_mul_le_mul_right low power, Nat.le_of_mul_le_mul_right high power, fun tie =>
    even (tie.imp (congrArg (· * 2 ^ j)) (congrArg (· * 2 ^ j)))⟩

/-! ## The rounded number -/

theorem log2_of_bounds {m k : Nat} (low : 2 ^ k ≤ m) (high : m < 2 ^ (k + 1)) : m.log2 = k :=
  (Nat.log2_eq_iff (by have := Nat.two_pow_pos k; omega)).2 ⟨low, high⟩

theorem round_large {n : Nat} (large : 2 ^ 63 ≤ n) (word : n < 2 ^ 64) :
    ∃ m e positive, UnpackedFloat.roundWithAccuracy double .positive (n * 2 ^ 53) (-53) .exact =
      .finite .positive m e positive ∧ m.log2 = 52 ∧
      (e = 11 ∧ Nearest n 10 m ∨ e = 12 ∧ m = 2 ^ 52 ∧ Nearest n 10 (2 ^ 53)) := by
  have size : (n * 2 ^ 53).log2 = 116 := log2_of_bounds (by omega) (by omega)
  have first : UnpackedFloat.shiftToTargetExponent double (n * 2 ^ 53) (-53) .exact =
      (ExtendedMantissa.mk (n * 2 ^ 53) false false >>> (63 + 1), 11) := by
    rw [shiftToTargetExponent_eq (by omega) (by decide), size]
    rfl
  have nearest := nearest_roundedMantissa (n * 2 ^ 53) 63
  generalize ExtendedMantissa.mk (n * 2 ^ 53) false false >>> (63 + 1) = em at first nearest
  rw [UnpackedFloat.roundWithAccuracy, first]
  dsimp only
  generalize em.roundedMantissa = r at nearest
  have low := nearest.low
  have high := nearest.high
  have second := shiftToTargetExponent_eq (m := r) (e := 11) (by omega) (by decide)
  rcases Nat.lt_or_ge r (2 ^ 53) with fits | carried
  · have bits : r.log2 = 52 := log2_of_bounds (by omega) fits
    have same : UnpackedFloat.shiftToTargetExponent double r 11 .exact =
        (ExtendedMantissa.mk r false false, 11) := by
      rw [second, bits]
      rfl
    have positive : r ≠ 0 := by omega
    simp only [same]
    exact ⟨r, 11, Nat.pos_of_ne_zero positive, dif_neg positive, bits,
      .inl ⟨rfl, Nearest.of_shifted (k := 10) 53 nearest⟩⟩
  · have power : r = 2 ^ 53 := by omega
    have shifted : UnpackedFloat.shiftToTargetExponent double (2 ^ 53) 11 .exact =
        (ExtendedMantissa.mk (2 ^ 52) false false, 12) := by
      rw [← power, second, power, Nat.log2_two_pow]
      rfl
    rw [power] at nearest ⊢
    simp only [shifted]
    exact ⟨2 ^ 52, 12, by decide, dif_neg (by decide), Nat.log2_two_pow,
      .inr ⟨rfl, rfl, Nearest.of_shifted (k := 10) 53 nearest⟩⟩

/-! ## The rounded number read off its bits -/

theorem fraction_eq_unpackMantissa (b : BitVec 64) :
    b.toNat % 2 ^ 52 = (@UnpackedFloat.unpackMantissa double b).toNat := by
  simp [UnpackedFloat.unpackMantissa]

theorem sign_eq_unpackSign (b : BitVec 64) :
    b.toNat / 2 ^ 63 % 2 = (@UnpackedFloat.unpackSign double b).toNat := by
  simp [UnpackedFloat.unpackSign, Nat.shiftRight_eq_div_pow]

theorem parts_packComponents {exponent : BitVec 11} (mantissa : BitVec 52)
    (normal : exponent.toNat ≠ 0) :
    let x := Decimal.Binary64.ofBits (packComponents double .positive exponent mantissa).toNat
    x.negative = false ∧ x.mantissa = 2 ^ 52 + mantissa.toNat ∧
      x.exponent = (exponent.toNat : Int) - 1075 := by
  have sign : (packComponents double .positive exponent mantissa).toNat / 2 ^ 63 % 2 = 0 := by
    rw [sign_eq_unpackSign, UnpackedFloat.unpackSign_packComponents]
    rfl
  have biased : (packComponents double .positive exponent mantissa).toNat / 2 ^ 52 % 2 ^ 11 =
      exponent.toNat := by
    rw [biased_eq_unpackExponent, UnpackedFloat.unpackExponent_packComponents]
  have fraction : (packComponents double .positive exponent mantissa).toNat % 2 ^ 52 =
      mantissa.toNat := by
    rw [fraction_eq_unpackMantissa, UnpackedFloat.unpackMantissa_packComponents]
  refine ⟨?_, ?_, ?_⟩
  · simp only [Decimal.Binary64.ofBits, Nat.pow_eq, sign, zero_ne_one, decide_false]
  · simp only [Decimal.Binary64.ofBits, Nat.pow_eq, biased, fraction, if_neg normal]
  · simp only [Decimal.Binary64.ofBits, Nat.pow_eq, biased, if_neg normal]

/-- A normal number that is packed has the parts that it was packed from. -/
theorem parts_pack {m : Nat} {e : Int} (positive : 0 < m) (normal : m.log2 = 52)
    (low : -1074 ≤ e) (high : e < 972) :
    let x := Decimal.Binary64.ofBits
      (UnpackedFloat.pack double (.finite .positive m e positive)).toNat
    x.negative = false ∧ x.mantissa = m ∧ x.exponent = e := by
  have bounds := (Nat.log2_eq_iff positive.ne').1 normal
  have fits : ¬2 ^ 11 ≤ (e + (1023 : Nat) + (52 : Nat)).toNat + 1 := by omega
  have allBits : m.log2 + 1 = double.mantissaBits := by
    rw [normal]
    rfl
  have bias : double.exponentBias = 1023 := rfl
  have biased : (BitVec.ofNat 11 (e + (1023 : Nat) + (52 : Nat)).toNat).toNat =
      (e + (1023 : Nat) + (52 : Nat)).toNat := by
    rw [BitVec.toNat_ofNat, Nat.mod_eq_of_lt (by omega)]
  have some : (BitVec.ofNat 11 (e + (1023 : Nat) + (52 : Nat)).toNat).toNat ≠ 0 := by omega
  obtain ⟨sign, mantissa, exponent⟩ := parts_packComponents (BitVec.ofNat 52 m) some
  simp only [UnpackedFloat.pack, bias]
  rw [if_neg fits, if_pos allBits]
  refine ⟨sign, mantissa.trans ?_, exponent.trans ?_⟩
  · rw [BitVec.toNat_ofNat]
    omega
  · omega

/-- A natural number rounds to a double of which it is at most half a unit away, and less than that
if the mantissa is odd.  Below the lowest double of an exponent it is at most a quarter. -/
theorem rounds_of_near {x : Decimal.Binary64} (canonical : x.Canonical) {n e : Nat}
    (exponent : x.exponent = .ofNat (e + 1)) (nearest : Nearest n e x.mantissa)
    (lowest : x.mantissa = 2 ^ 52 → 2 * (x.mantissa * 2 ^ (e + 1)) ≤ 2 * n + 2 ^ e) :
    x.Rounds n := by
  have whole : x.magnitude = (x.mantissa * 2 ^ (e + 1) : Nat) :=
    Decimal.Binary64.magnitude_of_ofNat exponent
  have ulp : x.ulp = 2 * (2 ^ e : Nat) := by
    rw [Decimal.Binary64.ulp, exponent, Int.ofNat_eq_natCast, zpow_natCast, pow_succ]
    push_cast
    ring
  have below : x.magnitude ≤ n + (2 ^ e : Nat) := by
    rw [whole]
    exact_mod_cast nearest.low
  have above : (n : ℚ) ≤ x.magnitude + (2 ^ e : Nat) := by
    rw [whole]
    exact_mod_cast nearest.high
  cases isLowest : x.lowest with
  | true =>
      have least := (canonical.lowest_iff.1 isLowest).1
      have close : 2 * x.magnitude ≤ 2 * n + (2 ^ e : Nat) := by
        rw [whole]
        exact_mod_cast lowest least
      rw [Decimal.Binary64.Rounds, if_pos (by omega), Decimal.Binary64.gap,
        if_pos isLowest, ulp]
      constructor <;> linarith
  | false =>
      rw [Decimal.Binary64.Rounds, Decimal.Binary64.gap, isLowest, if_neg Bool.false_ne_true, ulp]
      split
      next => constructor <;> linarith
      next odd =>
        have notBelow : x.magnitude ≠ n + (2 ^ e : Nat) := by
          intro same
          rw [whole] at same
          exact odd (nearest.even (.inl (by exact_mod_cast same)))
        have notAbove : (n : ℚ) ≠ x.magnitude + (2 ^ e : Nat) := by
          intro same
          rw [whole] at same
          exact odd (nearest.even (.inr (by exact_mod_cast same)))
        have strictlyBelow := lt_of_le_of_ne below notBelow
        have strictlyAbove := lt_of_le_of_ne above notAbove
        constructor <;> linarith

/-- **A natural number beyond the signed words becomes the double that it rounds to.**  The doubles
there are the multiples of 2048, and only those keep their value. -/
theorem rounds_ofNat {n : Nat} (large : 2 ^ 63 ≤ n) (word : n < 2 ^ 64) :
    let x := Decimal.Binary64.ofFloat (Float.ofNat n)
    x.negative = false ∧ x.Rounds n ∧ (x.value = n ↔ 2048 ∣ n) := by
  intro x
  obtain ⟨m, e, positive, rounded, normal, cases⟩ := round_large large word
  have bits : x = Decimal.Binary64.ofBits
      (UnpackedFloat.pack double (.finite .positive m e positive)).toNat := by
    change Decimal.Binary64.ofFloat (Float.ofNat n) = _
    rw [ofNat_eq (by omega), rounded]
    rfl
  have canonical : x.Canonical := Decimal.Binary64.canonical_ofBits _
  obtain ⟨sign, mantissa, exponent⟩ :=
    parts_pack positive normal (e := e) (by omega) (by omega)
  rw [← bits] at sign mantissa exponent
  clear_value x
  have value : x.value = x.magnitude := by
    rw [Decimal.Binary64.value, sign, if_neg Bool.false_ne_true]
  rw [value]
  rcases cases with ⟨rfl, nearest⟩ | ⟨rfl, rfl, nearest⟩
  · have whole : x.magnitude = (m * 2 ^ 11 : Nat) := by
      rw [Decimal.Binary64.magnitude_of_ofNat exponent, mantissa]
    have low := nearest.low
    have high := nearest.high
    refine ⟨sign, rounds_of_near (e := 10) canonical exponent (mantissa ▸ nearest) ?_, ?_⟩
    · omega
    · rw [whole, Nat.cast_inj]
      omega
  · have whole : x.magnitude = (2 ^ 52 * 2 ^ 12 : Nat) := by
      rw [Decimal.Binary64.magnitude_of_ofNat exponent, mantissa]
    obtain ⟨low, high, -⟩ := nearest
    have wider : Nearest n 11 (2 ^ 52) := ⟨by omega, by omega, fun _ => rfl⟩
    refine ⟨sign, rounds_of_near (e := 11) canonical exponent (mantissa ▸ wider) ?_, ?_⟩
    · omega
    · rw [whole, Nat.cast_inj]
      omega

end Binary64

end RequestQuery.Json
