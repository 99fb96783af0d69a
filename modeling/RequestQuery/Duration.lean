/-
# Durations

A duration counts nanoseconds.  Its text uses the largest unit of seconds, milliseconds,
microseconds and nanoseconds of which it has at least one, with a fraction where the unit does not
divide it and no zeros at the end of the fraction.
-/
import RequestQuery.Decimal.Whole

namespace RequestQuery

set_option autoImplicit false

structure Duration where
  nanoseconds : Nat
  deriving DecidableEq, Repr, Inhabited

namespace Duration

def milliseconds (n : Nat) : Duration :=
  ⟨n * 1000000⟩

def seconds (n : Nat) : Duration :=
  ⟨n * 1000000000⟩

def toMilliseconds (duration : Duration) : Nat :=
  duration.nanoseconds / 1000000

/-- The digits of `n` with leading zeros up to a width and no zeros at the end. -/
def fractionDigits (width n : Nat) : List Char :=
  let digits := Nat.toDigits 10 n
  let padded := List.replicate (width - digits.length) '0' ++ digits
  (padded.reverse.dropWhile (· = '0')).reverse

/-- The text of `n` in a unit of `10 ^ places`. -/
def inUnit (places : Nat) (unit : String) (n : Nat) : String :=
  let fraction := fractionDigits places (n % Nat.pow 10 places)
  let point := if fraction.isEmpty then "" else "." ++ String.ofList fraction
  Decimal.natural (n / Nat.pow 10 places) ++ point ++ unit

def text (duration : Duration) : String :=
  let n := duration.nanoseconds
  if Nat.pow 10 9 ≤ n then inUnit 9 "s" n
  else if Nat.pow 10 6 ≤ n then inUnit 6 "ms" n
  else if Nat.pow 10 3 ≤ n then inUnit 3 "µs" n
  else inUnit 0 "ns" n

example : (milliseconds 2).text = "2ms" := by decide +kernel
example : (milliseconds 1050).text = "1.05s" := by decide +kernel
example : (⟨0⟩ : Duration).text = "0ns" := by decide +kernel

end Duration

end RequestQuery
