/-
# JSON numbers

A number is an integer that fits a signed or an unsigned 64-bit word, or a finite double.  The two
kinds stay apart: `5` and `5.0` are different numbers.  The bounds are part of the type, so every
number has a text and every text of a number can be read again.
-/
import RequestQuery.Decimal.Whole
import RequestQuery.Decimal.Shortest

namespace RequestQuery.Json

set_option autoImplicit false

/-- The integers of a document: those of a signed or an unsigned 64-bit word. -/
def IsWord (n : Int) : Prop :=
  -0x8000000000000000 ≤ n ∧ n < 0x10000000000000000

instance (n : Int) : Decidable (IsWord n) :=
  inferInstanceAs (Decidable (_ ∧ _))

inductive Number where
  | integer (n : Int) (isWord : IsWord n)
  | double (x : Float) (finite : x.isFinite = true)
  deriving DecidableEq

namespace Number

/-! ## Making numbers -/

def ofInt? (n : Int) : Option Number :=
  if h : IsWord n then some (.integer n h) else none

/-- A finite double as a number. -/
def ofFloat? (x : Float) : Option Number :=
  if h : x.isFinite = true then some (.double x h) else none

def ofInt64 (i : Int64) : Number :=
  .integer i.toInt ⟨Int64.le_toInt i, Int.lt_trans (Int64.toInt_lt i) (by decide)⟩

def ofUInt64 (n : UInt64) : Number :=
  .integer n.toNat ⟨by omega, by have := n.toNat_lt; omega⟩

/-! ## Reading numbers as machine words and doubles -/

def toInt64? : Number → Option Int64
  | .integer n _ => if n < 0x8000000000000000 then some (Int64.ofInt n) else none
  | .double .. => none

def toUInt64? : Number → Option UInt64
  | .integer n _ => if 0 ≤ n then some (UInt64.ofNat n.toNat) else none
  | .double .. => none

/-- The number itself, or the double nearest to it. -/
def toFloat : Number → Float
  | .integer n _ => Float.ofInt n
  | .double x _ => x

/-! ## Text -/

def chars : Number → List Char
  | .integer n _ => Decimal.integerChars n
  | .double x _ => Decimal.doubleChars x

def text (n : Number) : String :=
  String.ofList n.chars

end Number

end RequestQuery.Json
