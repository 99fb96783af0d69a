/-
# The exact value of a double

A finite double is `± mantissa · 2 ^ exponent` with natural mantissa.  `Binary64.ofFloat` reads both
off the bits, so that questions about its value (is it an integer, which decimals round to it) become
questions about natural numbers.
-/
namespace RequestQuery.Decimal

set_option autoImplicit false

/-- A finite double as `± mantissa · 2 ^ exponent`. -/
structure Binary64 where
  negative : Bool
  mantissa : Nat
  exponent : Int
  /-- It is the least double of its exponent, so the next one below is only half as far away. -/
  lowest : Bool
  deriving DecidableEq, Repr

/-- The value that a pattern of bits stands for, read as if it were finite. -/
def Binary64.ofBits (bits : Nat) : Binary64 :=
  let fraction : Nat := bits % Nat.pow 2 52
  let biased : Nat := bits / Nat.pow 2 52 % Nat.pow 2 11
  { negative := decide (bits / Nat.pow 2 63 % 2 = 1)
    mantissa := if biased = 0 then fraction else Nat.pow 2 52 + fraction
    exponent := if biased = 0 then -1074 else (biased : Int) - 1075
    lowest := decide (fraction = 0 ∧ 1 < biased) }

def Binary64.ofFloat (x : Float) : Binary64 :=
  ofBits x.toBits.toNat

/-- The integer that a double equals, if it equals one. -/
def Binary64.toInt? (x : Binary64) : Option Int :=
  let sign : Int := if x.negative then -1 else 1
  match x.exponent with
  | .ofNat e => some (sign * ((x.mantissa * Nat.pow 2 e : Nat) : Int))
  | .negSucc e =>
      if x.mantissa % Nat.pow 2 (e + 1) = 0 then
        some (sign * ((x.mantissa / Nat.pow 2 (e + 1) : Nat) : Int))
      else none

example : (Binary64.ofFloat 7.0).toInt? = some 7 := by decide +kernel
example : (Binary64.ofFloat (-2.5)).toInt? = none := by decide +kernel
example : (Binary64.ofFloat 1e300).mantissa < 2 ^ 53 := by decide +kernel

end RequestQuery.Decimal
