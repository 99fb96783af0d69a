/-
# Whole numbers in decimal

Writing is the shortest form: no leading zeros, a minus sign for negative numbers.  Reading is more
generous: one plus sign and any number of leading zeros are allowed, and a bound decides which
numbers are too large.
-/
namespace RequestQuery.Decimal

set_option autoImplicit false

/-- The digits of a natural number. -/
def natural (n : Nat) : String :=
  String.ofList (Nat.toDigits 10 n)

def integerChars : Int → List Char
  | .ofNat n => Nat.toDigits 10 n
  | .negSucc n => '-' :: Nat.toDigits 10 (n + 1)

def integer (i : Int) : String :=
  String.ofList (integerChars i)

/-- The number that a run of one or more digits stands for. -/
def digits? (cs : List Char) : Option Nat :=
  if cs ≠ [] ∧ cs.all Char.isDigit = true then some (Nat.ofDigitChars 10 cs 0) else none

/-- The number that a text stands for, when it is at most `bound`. -/
def naturalUpTo? (bound : Nat) (s : String) : Option Nat := do
  let cs := match s.toList with
    | '+' :: rest => rest
    | cs => cs
  let n ← digits? cs
  if n ≤ bound then some n else none

example : naturalUpTo? 255 "+0255" = some 255 := by decide +kernel
example : naturalUpTo? 255 "256" = none := by decide +kernel
example : naturalUpTo? 255 "+" = none := by decide +kernel

end RequestQuery.Decimal
