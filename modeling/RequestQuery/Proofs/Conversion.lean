/-
# What a conversion keeps

A value that is made a parameter and read back is the value it was, of whatever kind it is, with one
exception: a parameter has no integers beyond the signed words.  Such an integer comes back as the
double that it rounds to (`toJson_of_large`), so it is another number, and unless it is a multiple
of 2048 its value has changed as well.
-/
import RequestQuery.Proofs.Json.Rounding
import RequestQuery.Proofs.Parameter

namespace RequestQuery.Parameter

set_option autoImplicit false

open Decimal (Binary64)

theorem toJson_of_large {n : Int} (isWord : Json.IsWord n) (large : 0x8000000000000000 ≤ n) :
    ∃ finite, (ofJson (.number (.integer n isWord))).toJson =
      .number (.double (Float.ofInt n) finite) := by
  have none : (Json.Number.integer n isWord).toInt64? = none := by
    rw [Json.Number.toInt64?, if_neg (Int.not_lt.2 large)]
  have rounded : ofJson (.number (.integer n isWord)) = .double (Float.ofInt n) := by
    rw [ofJson, ofNumber, none, Json.Number.toFloat]
  have finite : (Json.Number.integer n isWord).toFloat.isFinite = true :=
    Json.Number.isFinite_toFloat none
  rw [Json.Number.toFloat] at finite
  refine ⟨finite, ?_⟩
  rw [rounded, toJson, Json.Value.ofFloat, Json.Number.ofFloat?_of_isFinite finite]

/-- **A conversion keeps every value but the integers beyond the signed words.**  Of those it gives
the double that the integer rounds to, which has its value exactly if 2048 divides it. -/
theorem kept_or_rounded (value : Json.Value) :
    ((ofJson value).toJson = value ↔ value.FitsSigned) ∧
    ∀ n isWord, value = .number (.integer n isWord) → 0x8000000000000000 ≤ n →
      ∃ x finite, (ofJson value).toJson = .number (.double x finite) ∧
        (Binary64.ofFloat x).negative = false ∧ (Binary64.ofFloat x).Rounds n ∧
        ((Binary64.ofFloat x).value = n ↔ 2048 ∣ n) := by
  constructor
  · refine ⟨fun kept => ?_, toJson_ofJson⟩
    by_contra exceeds
    cases value with
    | number number =>
        cases number with
        | integer n isWord =>
            obtain ⟨_, changed⟩ := toJson_of_large isWord (not_lt.1 exceeds)
            rw [changed] at kept
            cases kept
        | double x finite => exact exceeds trivial
    | _ => exact exceeds trivial
  · rintro n isWord rfl large
    obtain ⟨m, rfl⟩ := Int.eq_ofNat_of_zero_le (show 0 ≤ n by omega)
    obtain ⟨finite, changed⟩ := toJson_of_large isWord large
    have word := isWord.2
    obtain ⟨positive, rounds, whole⟩ :=
      Json.Binary64.rounds_ofNat (n := m) (by omega) (by omega)
    refine ⟨_, finite, changed, positive, ?_, ?_⟩
    · rw [Int.cast_natCast]
      exact rounds
    · rw [Int.cast_natCast]
      exact whole.trans (by omega)

/-- The least odd integer beyond the signed words: it comes back as a double of another value. -/
theorem kept_or_rounded_odd :
    let n : Int := 9223372036854775809
    0x8000000000000000 ≤ n ∧
      ∃ x finite, (ofJson (.number (.integer n (by decide)))).toJson = .number (.double x finite) ∧
        (Binary64.ofFloat x).Rounds n ∧ (Binary64.ofFloat x).value ≠ n := by
  intro n
  have large : 0x8000000000000000 ≤ n := by decide
  obtain ⟨x, finite, changed, _, rounds, whole⟩ := (kept_or_rounded _).2 n (by decide) rfl large
  have odd : ¬2048 ∣ n := by decide
  exact ⟨large, x, finite, changed, rounds, fun same => odd (whole.1 same)⟩

/-- The greatest integer of a document is not kept. -/
theorem greatest_not_kept :
    (ofJson (.number (.integer 18446744073709551615 (by decide)))).toJson ≠
      .number (.integer 18446744073709551615 (by decide)) := by
  have greatest : Json.IsWord 18446744073709551615 := by decide
  obtain ⟨finite, changed⟩ := toJson_of_large greatest (by decide)
  rw [changed]
  exact nofun

end RequestQuery.Parameter
