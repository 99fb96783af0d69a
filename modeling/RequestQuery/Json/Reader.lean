/-
# Reading JSON text

The reader is strict: no trailing commas, no comments, no other number forms, no unescaped control
characters, no surrogate escapes that do not form a pair, and nothing but blanks after the value.
Arrays and objects may be nested to a given depth (`nestingLimit` for text that comes from outside).
A repeated member name keeps its first place and its last value.

A number without fraction and exponent that fits a 64-bit word is an integer, and `-0` is not one.
Any other number is a double, made from its digits as follows: as many leading digits as fit 64
bits form the significand, the remaining digits before the point only count as powers of ten, the
remaining ones after it are dropped, and the significand is rounded to a double and then multiplied
or divided by one power of ten.  A number beyond the range of doubles is refused, one below it is
zero.

Each reading function takes the characters that are left and hands back those it did not use.
-/
import RequestQuery.Json.Value

namespace RequestQuery.Json.Reader

set_option autoImplicit false

/-! ## Blanks and strings -/

def isSpace (c : Char) : Bool :=
  c = ' ' || c = '\t' || c = '\n' || c = '\r'

def skipSpace (cs : List Char) : List Char :=
  cs.dropWhile isSpace

def hexDigit? (c : Char) : Option Nat :=
  if '0' ≤ c ∧ c ≤ '9' then some (c.toNat - 0x30)
  else if 'a' ≤ c ∧ c ≤ 'f' then some (c.toNat - 0x61 + 10)
  else if 'A' ≤ c ∧ c ≤ 'F' then some (c.toNat - 0x41 + 10)
  else none

def hex4? (a b c d : Char) : Option Nat := do
  let a ← hexDigit? a
  let b ← hexDigit? b
  let c ← hexDigit? c
  let d ← hexDigit? d
  pure (((a * 16 + b) * 16 + c) * 16 + d)

/-- The character of an escape with one letter. -/
def simpleEscape? : Char → Option Char
  | '"' => some '"'
  | '\\' => some '\\'
  | '/' => some '/'
  | 'b' => some '\x08'
  | 'f' => some '\x0C'
  | 'n' => some '\n'
  | 'r' => some '\r'
  | 't' => some '\t'
  | _ => none

def isHighSurrogate (n : Nat) : Bool :=
  0xD800 ≤ n && n ≤ 0xDBFF

def isLowSurrogate (n : Nat) : Bool :=
  0xDC00 ≤ n && n ≤ 0xDFFF

def pairedSurrogates (high low : Nat) : Char :=
  Char.ofNat (0x10000 + (high - 0xD800) * 0x400 + (low - 0xDC00))

/-- The rest of a string after its opening quote. -/
def stringTail : List Char → Option (List Char × List Char)
  | [] => none
  | '"' :: rest => some ([], rest)
  | '\\' :: 'u' :: a :: b :: c :: d :: rest =>
      match hex4? a b c d with
      | none => none
      | some n =>
          if isHighSurrogate n then
            match rest with
            | '\\' :: 'u' :: e :: f :: g :: h :: rest' =>
                match hex4? e f g h with
                | none => none
                | some m =>
                    if isLowSurrogate m then
                      (stringTail rest').map fun r => (pairedSurrogates n m :: r.1, r.2)
                    else none
            | _ => none
          else if isLowSurrogate n then none
          else (stringTail rest).map fun r => (Char.ofNat n :: r.1, r.2)
  | '\\' :: e :: rest =>
      match simpleEscape? e with
      | none => none
      | some c => (stringTail rest).map fun r => (c :: r.1, r.2)
  | c :: rest =>
      if c.toNat < 0x20 ∨ c = '\\' then none
      else (stringTail rest).map fun r => (c :: r.1, r.2)

/-! ## Numbers -/

def digitValue (c : Char) : Nat :=
  c.toNat - 0x30

/-- Append digits to a significand while it fits 64 bits; the count of those that are left. -/
def wholeDigits (significand : Nat) : List Char → Nat × Nat
  | [] => (significand, 0)
  | d :: ds =>
      let next := significand * 10 + digitValue d
      if next < 2 ^ 64 then wholeDigits next ds else (significand, ds.length + 1)

/-- Append digits to a significand while it fits 64 bits; the count of those appended. -/
def fractionDigits (significand : Nat) : List Char → Nat × Nat
  | [] => (significand, 0)
  | d :: ds =>
      let next := significand * 10 + digitValue d
      if next < 2 ^ 64 then
        let r := fractionDigits next ds
        (r.1, r.2 + 1)
      else (significand, 0)

/-- The double nearest to a power of ten, up to the greatest one that has a double. -/
def powerOfTen (n : Nat) : Float :=
  Float.ofScientific 1 false n

def greatestPower : Nat := 308

/-- Divide by a power of ten, in steps of the greatest one. -/
def divide (x : Float) (n : Nat) : Float :=
  if n ≤ greatestPower then x / powerOfTen n
  else if x == 0 then x
  else divide (x / powerOfTen greatestPower) (n - greatestPower)
termination_by n
decreasing_by simp only [greatestPower] at *; omega

/-- `significand · 10 ^ exponent` as a double; `none` when it is too large for one. -/
def scale? (significand : Nat) (exponent : Int) : Option Float :=
  let x := (UInt64.ofNat significand).toFloat
  match exponent with
  | .ofNat e =>
      if e ≤ greatestPower then
        let y := x * powerOfTen e
        if y.isInf then none else some y
      else if x == 0 then some x else none
  | .negSucc e => some (divide x (e + 1))

/-- The digits at the front and the rest. -/
def digitRun (cs : List Char) : List Char × List Char :=
  (cs.takeWhile Char.isDigit, cs.dropWhile Char.isDigit)

/-- The digits after a point, none where there is no point. -/
def fraction? : List Char → Option (List Char × List Char)
  | '.' :: rest =>
      match digitRun rest with
      | ([], _) => none
      | run => some run
  | rest => some ([], rest)

/-- The digits of an exponent after its mark, with an optional sign. -/
def exponentTail? (cs : List Char) : Option (Int × List Char) :=
  let (negative, cs) := match cs with
    | '-' :: rest => (true, rest)
    | '+' :: rest => (false, rest)
    | cs => (false, cs)
  match digitRun cs with
  | ([], _) => none
  | (ds, rest) =>
      let n : Int := Nat.ofDigitChars 10 ds 0
      some (if negative then -n else n, rest)

/-- The exponent, if there is one. -/
def exponent? : List Char → Option (Option Int × List Char)
  | [] => some (none, [])
  | c :: rest =>
      if c = 'e' ∨ c = 'E' then (exponentTail? rest).map fun r => (some r.1, r.2)
      else some (none, c :: rest)

/-- The digits before the point: a single zero or a run that starts with none. -/
def wholePart? (cs : List Char) : Option (List Char × List Char) :=
  match digitRun cs with
  | ([], _) => none
  | (['0'], rest) => some (['0'], rest)
  | ('0' :: _, _) => none
  | run => some run

/-- The integer that digits with a sign stand for, unless it is a negative zero or too long for a
64-bit word. -/
def integer? (negative : Bool) (ds : List Char) : Option Number :=
  let n : Int := Nat.ofDigitChars 10 ds 0
  if negative then (if n = 0 then none else Number.ofInt? (-n)) else Number.ofInt? n

def double? (negative : Bool) (whole fraction : List Char) (exponent : Int) : Option Number := do
  let (significand, skipped) := wholeDigits 0 whole
  let (significand, used) := fractionDigits significand fraction
  let x ← scale? significand (exponent + skipped - used)
  Number.ofFloat? (if negative then -x else x)

def number? (cs : List Char) : Option (Number × List Char) := do
  let (negative, cs) := match cs with
    | '-' :: rest => (true, rest)
    | cs => (false, cs)
  let (whole, rest) ← wholePart? cs
  let (fraction, rest) ← fraction? rest
  let (exponent, rest) ← exponent? rest
  let asDouble := double? negative whole fraction (exponent.getD 0)
  let n ← match fraction, exponent with
    | [], none => (integer? negative whole).or asDouble
    | _, _ => asDouble
  pure (n, rest)

/-! ## Values -/

mutual

/-- One value; `depth` more arrays and objects may be opened. -/
def value : Nat → Nat → List Char → Option (Value × List Char)
  | 0, _, _ => none
  | fuel + 1, depth, cs =>
      match skipSpace cs with
      | 'n' :: 'u' :: 'l' :: 'l' :: rest => some (.null, rest)
      | 't' :: 'r' :: 'u' :: 'e' :: rest => some (.bool true, rest)
      | 'f' :: 'a' :: 'l' :: 's' :: 'e' :: rest => some (.bool false, rest)
      | '"' :: rest => (stringTail rest).map fun r => (.string (String.ofList r.1), r.2)
      | '[' :: rest =>
          match depth with
          | 0 => none
          | depth + 1 =>
              match skipSpace rest with
              | ']' :: rest => some (.array [], rest)
              | rest => (items fuel depth rest).map fun r => (.array r.1, r.2)
      | '{' :: rest =>
          match depth with
          | 0 => none
          | depth + 1 =>
              match skipSpace rest with
              | '}' :: rest => some (.object [], rest)
              | rest => (members fuel depth rest).map fun r => (.object (Ordered.ofList r.1), r.2)
      | cs => (number? cs).map fun r => (.number r.1, r.2)

/-- One or more items and the closing bracket. -/
def items : Nat → Nat → List Char → Option (List Value × List Char)
  | 0, _, _ => none
  | fuel + 1, depth, cs => do
      let (v, rest) ← value fuel depth cs
      match skipSpace rest with
      | ',' :: rest =>
          let (vs, rest) ← items fuel depth rest
          pure (v :: vs, rest)
      | ']' :: rest => pure ([v], rest)
      | _ => none

/-- One or more members and the closing brace. -/
def members : Nat → Nat → List Char → Option (List (String × Value) × List Char)
  | 0, _, _ => none
  | fuel + 1, depth, cs =>
      match skipSpace cs with
      | '"' :: rest => do
          let (name, rest) ← stringTail rest
          match skipSpace rest with
          | ':' :: rest =>
              let (v, rest) ← value fuel depth rest
              let entry := (String.ofList name, v)
              match skipSpace rest with
              | ',' :: rest =>
                  let (more, rest) ← members fuel depth rest
                  pure (entry :: more, rest)
              | '}' :: rest => pure ([entry], rest)
              | _ => none
          | _ => none
      | _ => none

end

/-- Every call uses a character or is made for a call that did. -/
def fuelFor (cs : List Char) : Nat :=
  2 * cs.length + 2

/-- How deeply arrays and objects may be nested in text from outside. -/
def nestingLimit : Nat := 127

end RequestQuery.Json.Reader

namespace RequestQuery.Json.Value

/-- The value that a whole text stands for, with at most `limit` nested arrays and objects. -/
def ofTextUpTo? (limit : Nat) (s : String) : Option Value :=
  let cs := s.toList
  match Reader.value (Reader.fuelFor cs) limit cs with
  | some (v, rest) => if (Reader.skipSpace rest).isEmpty then some v else none
  | none => none

/-- The value that a whole text from outside stands for. -/
def ofText? (s : String) : Option Value :=
  ofTextUpTo? Reader.nestingLimit s

end RequestQuery.Json.Value
