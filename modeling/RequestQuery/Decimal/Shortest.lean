/-
# The shortest decimal of a double

Every double is the nearest double to a whole interval of numbers.  Its shortest decimal is the one
with the fewest digits in that interval, and among those the one nearest to the value; of two
equally near ones it is the one whose last digit is even.

The search is exact.  The value and the ends of its interval are counted in quarters of the last
binary place, and for `n` digits only the two neighbours of the value on the grid of `n`-digit
decimals are tried: if any decimal of that grid lies in the interval, one of them does.  Seventeen
digits always suffice.

The text of a double has the decimal point in place for decimal exponents from -5 to 15 and is
scientific outside.
-/
import RequestQuery.Decimal.Binary64

namespace RequestQuery.Decimal

set_option autoImplicit false

/-! ## The rounding interval -/

/-- `± digits · 10 ^ exponent`. -/
structure Scientific where
  digits : Nat
  exponent : Int
  deriving DecidableEq, Repr

/-- The numbers `count · 10 ^ ten · 2 ^ two` with exponents of either sign, compared exactly. -/
structure Scaled where
  count : Nat
  ten : Int
  two : Int

/-- Both numbers over their common denominator. -/
def Scaled.align (a b : Scaled) : Nat × Nat :=
  let ten := min a.ten b.ten
  let two := min a.two b.two
  let whole (s : Scaled) := s.count * Nat.pow 10 (s.ten - ten).toNat * Nat.pow 2 (s.two - two).toNat
  (whole a, whole b)

def Scaled.le (a b : Scaled) : Bool :=
  let sides := a.align b
  sides.1 ≤ sides.2

def Scaled.lt (a b : Scaled) : Bool :=
  let sides := a.align b
  sides.1 < sides.2

namespace Binary64

/-- A number of quarters of the last binary place of `x`. -/
def quarters (x : Binary64) (n : Nat) : Scaled :=
  ⟨n, 0, x.exponent - 2⟩

/-- Does `n · 10 ^ k` round to `x`?  The ends of the interval belong to it exactly when the
mantissa is even. -/
def roundsTo (x : Binary64) (n : Nat) (k : Int) : Bool :=
  let candidate : Scaled := ⟨n, k, 0⟩
  let low := x.quarters (4 * x.mantissa - if x.lowest then 1 else 2)
  let high := x.quarters (4 * x.mantissa + 2)
  if x.mantissa % 2 = 0 then low.le candidate && candidate.le high
  else low.lt candidate && candidate.lt high

/-- The exponent `e` with `10 ^ e ≤ x < 10 ^ (e + 1)`. -/
def decimalExponent (x : Binary64) : Int :=
  match x.exponent with
  | .ofNat e => ((Nat.toDigits 10 (x.mantissa * Nat.pow 2 e)).length : Int) - 1
  | .negSucc e =>
      let den := Nat.pow 2 (e + 1)
      if den ≤ x.mantissa then ((Nat.toDigits 10 (x.mantissa / den)).length : Int) - 1
      else
        let ceiling := (den + x.mantissa - 1) / x.mantissa
        Int.negOfNat (Nat.toDigits 10 (ceiling - 1)).length

/-- The greatest multiple of `10 ^ k` that is not above `x`, as a count. -/
def floorAt (x : Binary64) (k : Int) : Nat :=
  let sides := (x.quarters (4 * x.mantissa)).align ⟨1, k, 0⟩
  sides.1 / sides.2

/-- Is `n · 10 ^ k` nearer to `x` than `(n + 1) · 10 ^ k`, or as near with `n` even? -/
def prefersFloor (x : Binary64) (n : Nat) (k : Int) : Bool :=
  let middle : Scaled := ⟨2 * n + 1, k, -1⟩
  let value := x.quarters (4 * x.mantissa)
  value.lt middle || (value.le middle && n % 2 = 0)

/-- The best decimal of `n` digits that rounds to `x`, if there is one. -/
def atDigits? (x : Binary64) (n : Nat) : Option Scientific :=
  let k := x.decimalExponent - (n - 1 : Nat)
  let below := x.floorAt k
  match x.roundsTo below k, x.roundsTo (below + 1) k with
  | true, true => some ⟨if x.prefersFloor below k then below else below + 1, k⟩
  | true, false => some ⟨below, k⟩
  | false, true => some ⟨below + 1, k⟩
  | false, false => none

end Binary64

/-! ## The digits -/

/-- The digits without trailing zeros; one zero for nothing else. -/
def stripZeros (ds : List Char) : List Char :=
  match (ds.reverse.dropWhile (· = '0')).reverse with
  | [] => ['0']
  | ds => ds

/-- The significant digits of a decimal and the exponent of the first of them. -/
structure Significand where
  digits : List Char
  exponent : Int
  deriving DecidableEq, Repr

def Scientific.significand (s : Scientific) : Significand :=
  let ds := Nat.toDigits 10 s.digits
  ⟨stripZeros ds, s.exponent + ((ds.length : Int) - 1)⟩

/-- The shortest significand of the magnitude of a finite double. -/
def Binary64.shortest (x : Binary64) : Significand :=
  if x.mantissa = 0 then ⟨['0'], 0⟩
  else
    match (List.range 17).findSome? fun n => x.atDigits? (n + 1) with
    | some s => s.significand
    | none => ⟨['0'], 0⟩

/-! ## The text -/

/-- Digits with the decimal point in place, and at least one digit on both sides of it. -/
def Significand.positional (s : Significand) : List Char :=
  match s.exponent with
  | .ofNat e =>
      let whole := s.digits.take (e + 1)
      let fraction := s.digits.drop (e + 1)
      whole ++ List.replicate (e + 1 - whole.length) '0' ++
        '.' :: (if fraction.isEmpty then ['0'] else fraction)
  | .negSucc e => ['0', '.'] ++ List.replicate e '0' ++ s.digits

/-- One digit, the fraction if there is one, and a signed exponent. -/
def Significand.scientific (s : Significand) : List Char :=
  let fraction := s.digits.drop 1
  s.digits.take 1 ++ (if fraction.isEmpty then [] else '.' :: fraction) ++
    'e' :: match s.exponent with
      | .ofNat e => '+' :: Nat.toDigits 10 e
      | .negSucc e => '-' :: Nat.toDigits 10 (e + 1)

/-- The exponents that are written with the point in place. -/
def leastPositional : Int := -5
def leastScientific : Int := 16

/-- The characters of a finite double. -/
def doubleChars (x : Float) : List Char :=
  let value := Binary64.ofFloat x
  let s := value.shortest
  (if value.negative then ['-'] else []) ++
    if leastPositional ≤ s.exponent ∧ s.exponent < leastScientific then s.positional
    else s.scientific

/-- The text of a finite double. -/
def double (x : Float) : String :=
  String.ofList (doubleChars x)

/-- The text of any double with the point always in place. -/
def plainDouble (x : Float) : String :=
  if x.isNaN then "NaN"
  else if x.isInf then (if x < 0 then "-inf" else "inf")
  else
    let value := Binary64.ofFloat x
    String.ofList ((if value.negative then ['-'] else []) ++ value.shortest.positional)

example : double 0.1 = "0.1" := by decide +kernel
example : double (-0.0) = "-0.0" := by decide +kernel
end RequestQuery.Decimal
