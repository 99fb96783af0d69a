/-
# Numbers as words and as doubles

A number that a signed word can hold is that word again (`ofInt64_of_toInt64?`).  An integer that is
too large for one is rounded to the nearest double.  Rounding raises the exponent only to make room
for the bits of the mantissa, and a word has few of them: the exponent stays far below the greatest
one, so the double is finite and is a number itself (`isFinite_toFloat`).  It has all the bits of a
mantissa and is large as well (`large_toFloat`).
-/
import Mathlib
import RequestQuery.Json.Number

namespace RequestQuery.Json

set_option autoImplicit false

namespace Binary64

open Float.Model
open Float.Model.UnpackedFloat (Sign ExtendedMantissa packComponents)

/-- The format of a double. -/
abbrev double : Float.Model.Format := .binary64

/-! ## Packed numbers -/

theorem isFinite_packComponents {sign : Sign} {exponent : BitVec 11} {mantissa : BitVec 52}
    (small : exponent ≠ -1#11) :
    (UnpackedFloat.unpack double (packComponents double sign exponent mantissa)).isFinite =
      true := by
  simp only [UnpackedFloat.unpack, UnpackedFloat.unpackExponent_packComponents,
    UnpackedFloat.unpackMantissa_packComponents, if_neg small]
  split
  · split <;> rfl
  · rfl

/-- A number below the greatest exponent is packed as a finite one. -/
theorem isFinite_pack_finite (sign : Sign) {m : Nat} {e : Int} (positive : 0 < m) (small : e < 972) :
    (Float.Model.pack (.finite sign m e positive)).isFinite = true := by
  have fits : ¬ 2 ^ 11 ≤ (e + (1023 : Nat) + (52 : Nat)).toNat + 1 := by omega
  have below : BitVec.ofNat 11 (e + (1023 : Nat) + (52 : Nat)).toNat ≠ -1#11 := by
    intro same
    have := congrArg BitVec.toNat same
    simp at this
    omega
  change (UnpackedFloat.unpack double (UnpackedFloat.pack double _)).isFinite = true
  have bias : double.exponentBias = 1023 := rfl
  simp only [UnpackedFloat.pack, bias]
  rw [if_neg fits]
  split
  · exact isFinite_packComponents below
  · exact isFinite_packComponents (by decide)

theorem isFinite_pack_zero (sign : Sign) : (Float.Model.pack (.zero sign)).isFinite = true :=
  isFinite_packComponents (by decide)

/-! ## Rounding -/

theorem mantissa_shiftRight (em : ExtendedMantissa) (k : Nat) :
    (em >>> k).mantissa = em.mantissa / 2 ^ k := by
  change (Nat.repeat ExtendedMantissa.shiftRightOne k em).mantissa = em.mantissa / 2 ^ k
  induction k with
  | zero =>
      rw [pow_zero, Nat.div_one]
      rfl
  | succ k ih =>
      rw [pow_succ, ← Nat.div_div_eq_div_mul, ← ih]
      rfl

theorem roundedMantissa_le (em : ExtendedMantissa) : em.roundedMantissa ≤ em.mantissa + 1 := by
  obtain ⟨m, round, sticky⟩ := em
  cases round <;> cases sticky <;>
    simp [ExtendedMantissa.roundedMantissa, ExtendedMantissa.accuracy,
      UnpackedFloat.Accuracy.roundToNearestEven]
  omega

/-- Shifting raises the exponent no further than the bits of the mantissa ask for. -/
theorem exponent_shiftToTargetExponent_le {m k : Nat} {e : Int} (bits : m < 2 ^ k)
    (low : -1074 ≤ e) :
    (UnpackedFloat.shiftToTargetExponent double m e .exact).2 ≤ e + k := by
  have size : m.log2 ≤ k := by
    by_cases zero : m = 0
    · simp [zero]
    · exact Nat.le_of_lt ((Nat.log2_lt zero).2 bits)
  change e + ((double.targetExponent (totalExponent m e) - e).toNat : Int) ≤ e + k
  have target : double.targetExponent (totalExponent m e) = max (m.log2 + 1 + e - 53) (-1074) := rfl
  rw [target]
  omega

theorem le_exponent_shiftToTargetExponent (m : Nat) (e : Int) :
    e ≤ (UnpackedFloat.shiftToTargetExponent double m e .exact).2 := by
  change e ≤ e + ((double.targetExponent (totalExponent m e) - e).toNat : Int)
  omega

/-- What has few bits is rounded to a finite number. -/
theorem isFinite_round (sign : Sign) {m : Nat} {e : Int} (bits : m < 2 ^ 200) (high : e ≤ 0)
    (low : -1074 ≤ e) :
    (Float.Model.pack (UnpackedFloat.roundWithAccuracy double sign m e .exact)).isFinite =
      true := by
  have first := exponent_shiftToTargetExponent_le bits low
  have raised := le_exponent_shiftToTargetExponent m e
  have rounded : (UnpackedFloat.shiftToTargetExponent double m e .exact).1.roundedMantissa <
      2 ^ 201 := by
    have shifted : (UnpackedFloat.shiftToTargetExponent double m e .exact).1.mantissa ≤ m :=
      (mantissa_shiftRight _ _).trans_le (Nat.div_le_self _ _)
    have := roundedMantissa_le (UnpackedFloat.shiftToTargetExponent double m e .exact).1
    omega
  have second := exponent_shiftToTargetExponent_le rounded (Int.le_trans low raised)
  simp only [UnpackedFloat.roundWithAccuracy]
  split
  · exact isFinite_pack_zero sign
  · exact isFinite_pack_finite sign _ (by omega)

theorem ofScientific_zero {n : Nat} (some : n ≠ 0) :
    UnpackedFloat.ofScientific double n 0 =
      UnpackedFloat.roundWithAccuracy double .positive (n <<< 53 * 1) (-53) .exact := by
  have notHuge : ¬ (0 : Int) > 2 ^ 11 := by decide
  have notTiny : ¬ (0 : Int) < -((2 ^ 11 : Int) + n.log2) := by omega
  rw [UnpackedFloat.ofScientific, dif_neg some, if_neg notHuge, if_neg notTiny,
    if_pos (Int.le_refl 0)]
  rfl

theorem ofNat_eq {n : Nat} (large : 2 ^ 53 ≤ n) :
    Float.ofNat n = .ofModel (.pack
      (UnpackedFloat.roundWithAccuracy double .positive (n * 2 ^ 53) (-53) .exact)) := by
  have slow : ¬ (n < 2 ^ 53 ∧ 0 ≤ 22) := by omega
  have shifted : n <<< 53 * 1 = n * 2 ^ 53 := by rw [Nat.mul_one, Nat.shiftLeft_eq]
  rw [← shifted, ← ofScientific_zero (by omega)]
  change Float.ofScientific n false 0 = _
  rw [Float.ofScientific, dif_neg slow]
  rfl

/-- A natural number of a word becomes a finite double. -/
theorem isFinite_ofNat {n : Nat} (large : 2 ^ 53 ≤ n) (word : n < 2 ^ 64) :
    (Float.ofNat n).isFinite = true := by
  rw [ofNat_eq large]
  exact isFinite_round .positive (by omega) (by decide) (by decide)

/-! ## Normal numbers -/

theorem le_roundedMantissa (em : ExtendedMantissa) : em.mantissa ≤ em.roundedMantissa := by
  obtain ⟨m, round, sticky⟩ := em
  cases round <;> cases sticky <;>
    simp [ExtendedMantissa.roundedMantissa, ExtendedMantissa.accuracy,
      UnpackedFloat.Accuracy.roundToNearestEven]

theorem log2_div_pow {m k : Nat} (some : m ≠ 0) (bits : k ≤ m.log2) :
    (m / 2 ^ (m.log2 - k)).log2 = k := by
  have power : 0 < 2 ^ (m.log2 - k) := by positivity
  obtain ⟨below, above⟩ := (Nat.log2_eq_iff some).1 rfl
  have least : 2 ^ k ≤ m / 2 ^ (m.log2 - k) := by
    rw [Nat.le_div_iff_mul_le power, ← pow_add, Nat.add_sub_cancel' bits]
    exact below
  rw [Nat.log2_eq_iff (by have := Nat.two_pow_pos k; omega)]
  refine ⟨least, ?_⟩
  rw [Nat.div_lt_iff_lt_mul power, ← pow_add]
  convert above using 2
  omega

/-- What has enough bits is shifted until it has those of a mantissa. -/
theorem shiftToTargetExponent_eq {m : Nat} {e : Int} (bits : 2 ^ 52 ≤ m) (low : -1074 ≤ e) :
    UnpackedFloat.shiftToTargetExponent double m e .exact =
      (ExtendedMantissa.mk m false false >>> (m.log2 - 52), e + (m.log2 - 52 : Nat)) := by
  have size : 52 ≤ m.log2 := (Nat.le_log2 (by omega)).2 bits
  have target : double.targetExponent (totalExponent m e) = max (m.log2 + 1 + e - 53) (-1074) := rfl
  have amount : (double.targetExponent (totalExponent m e) - e).toNat = m.log2 - 52 := by
    rw [target]
    omega
  rw [← amount]
  rfl

theorem shiftToTargetExponent_normal {m : Nat} {e : Int} (bits : 2 ^ 52 ≤ m) (low : -1074 ≤ e) :
    (UnpackedFloat.shiftToTargetExponent double m e .exact).1.mantissa.log2 = 52 ∧
      (UnpackedFloat.shiftToTargetExponent double m e .exact).2 = e + (m.log2 - 52 : Nat) := by
  have some : m ≠ 0 := by omega
  have size : 52 ≤ m.log2 := (Nat.le_log2 some).2 bits
  rw [shiftToTargetExponent_eq bits low]
  refine ⟨?_, rfl⟩
  rw [mantissa_shiftRight]
  exact log2_div_pow some size

/-- What has enough bits is rounded to a normal number. -/
theorem round_eq_finite (sign : Sign) {m : Nat} {e : Int} (bits : 2 ^ 52 ≤ m)
    (low : -1074 ≤ e) :
    ∃ m' e' positive, UnpackedFloat.roundWithAccuracy double sign m e .exact =
      .finite sign m' e' positive ∧ m'.log2 = 52 ∧ e + (m.log2 - 52 : Nat) ≤ e' := by
  obtain ⟨size, raised⟩ := shiftToTargetExponent_normal bits low
  simp only [UnpackedFloat.roundWithAccuracy]
  generalize UnpackedFloat.shiftToTargetExponent double m e .exact = first at size raised ⊢
  have rounded : 2 ^ 52 ≤ first.1.roundedMantissa := by
    refine Nat.le_trans ?_ (le_roundedMantissa _)
    exact (Nat.le_log2 (by rintro zero; rw [zero] at size; cases size)).1 size.ge
  obtain ⟨finalSize, final⟩ := shiftToTargetExponent_normal (e := first.2) rounded (by omega)
  have some : (UnpackedFloat.shiftToTargetExponent double first.1.roundedMantissa first.2
      .exact).1.mantissa ≠ 0 := by
    intro zero
    rw [zero] at finalSize
    cases finalSize
  exact ⟨_, _, Nat.pos_of_ne_zero some, dif_neg some, finalSize, by omega⟩

theorem biased_eq_unpackExponent (b : BitVec 64) :
    b.toNat / 2 ^ 52 % 2 ^ 11 = (@UnpackedFloat.unpackExponent double b).toNat := by
  simp [UnpackedFloat.unpackExponent, Nat.shiftRight_eq_div_pow]

/-- A normal number is packed with its exponent, or with the greatest one. -/
theorem toNat_biased_pack (sign : Sign) {m : Nat} {e : Int} (positive : 0 < m)
    (normal : m.log2 = 52) (large : 11 ≤ e) :
    1086 ≤ (@UnpackedFloat.unpackExponent double
      (UnpackedFloat.pack double (.finite sign m e positive))).toNat := by
  have bias : double.exponentBias = 1023 := rfl
  simp only [UnpackedFloat.pack, bias]
  split
  next =>
    rw [UnpackedFloat.packedInfinity, UnpackedFloat.unpackExponent_packComponents]
    decide
  next fits =>
    have allBits : m.log2 + 1 = double.mantissaBits := by
      rw [normal]
      rfl
    have word : (e + (1023 : Nat) + (52 : Nat)).toNat < 2 ^ 11 := by omega
    rw [if_pos allBits, UnpackedFloat.unpackExponent_packComponents, BitVec.toNat_ofNat]
    change 1086 ≤ (e + (1023 : Nat) + (52 : Nat)).toNat % 2 ^ 11
    rw [Nat.mod_eq_of_lt word]
    omega

/-- A natural number that is too large for a signed word becomes a large double. -/
theorem large_ofNat {n : Nat} (large : 2 ^ 63 ≤ n) :
    11 ≤ (Decimal.Binary64.ofFloat (Float.ofNat n)).exponent ∧
      2 ^ 52 ≤ (Decimal.Binary64.ofFloat (Float.ofNat n)).mantissa := by
  have size : 116 ≤ (n * 2 ^ 53).log2 := (Nat.le_log2 (by omega)).2 (by omega)
  obtain ⟨m, e, positive, rounded, normal, raised⟩ :=
    round_eq_finite .positive (m := n * 2 ^ 53) (e := -53) (by omega) (by decide)
  have high : 11 ≤ e := by omega
  have bits : (Float.ofNat n).toBits.toNat =
      (UnpackedFloat.pack double (.finite .positive m e positive)).toNat := by
    rw [ofNat_eq (by omega), rounded]
    rfl
  have biased := toNat_biased_pack .positive positive normal high
  rw [← biased_eq_unpackExponent, ← bits] at biased
  simp only [Decimal.Binary64.ofFloat, Decimal.Binary64.ofBits, Nat.pow_eq]
  generalize (Float.ofNat n).toBits.toNat = b at biased
  rw [if_neg (by omega), if_neg (by omega)]
  exact ⟨by omega, Nat.le_add_right _ _⟩

end Binary64

/-! ## Numbers of a document -/

namespace Number

theorem ofInt64_of_toInt64? {n : Number} {i : Int64} (word : n.toInt64? = some i) :
    ofInt64 i = n := by
  cases n with
  | double x finite => cases word
  | integer k isWord =>
      simp only [toInt64?, Option.ite_none_right_eq_some, Option.some.injEq] at word
      obtain ⟨small, rfl⟩ := word
      have same : (Int64.ofInt k).toInt = k := Int64.toInt_ofInt_of_le isWord.1 small
      simp only [ofInt64, same]

theorem toUInt64?_ofUInt64 (n : UInt64) : (ofUInt64 n).toUInt64? = some n := by
  simp [ofUInt64, toUInt64?]

/-- What no signed word can hold has a finite double. -/
theorem isFinite_toFloat {n : Number} (large : n.toInt64? = none) : n.toFloat.isFinite = true := by
  cases n with
  | double x finite => exact finite
  | integer k isWord =>
      simp only [toInt64?, ite_eq_right_iff, reduceCtorEq, imp_false] at large
      obtain ⟨m, rfl⟩ := Int.eq_ofNat_of_zero_le (show 0 ≤ k by omega)
      obtain ⟨_, word⟩ := isWord
      exact Binary64.isFinite_ofNat (by omega) (by omega)

/-- What no signed word can hold has a large double. -/
theorem large_toFloat {n : Int} {isWord : IsWord n} (large : (integer n isWord).toInt64? = none) :
    11 ≤ (Decimal.Binary64.ofFloat (integer n isWord).toFloat).exponent ∧
      2 ^ 52 ≤ (Decimal.Binary64.ofFloat (integer n isWord).toFloat).mantissa := by
  simp only [toInt64?, ite_eq_right_iff, reduceCtorEq, imp_false] at large
  obtain ⟨m, rfl⟩ := Int.eq_ofNat_of_zero_le (show 0 ≤ n by omega)
  exact Binary64.large_ofNat (by omega)

theorem ofFloat?_of_isFinite {x : Float} (finite : x.isFinite = true) :
    ofFloat? x = some (.double x finite) :=
  dif_pos finite

end Number

end RequestQuery.Json
