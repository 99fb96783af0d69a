/-
# Numbers and times of TOML

Digits may be grouped with underscores between them.  An integer is signed decimal without leading
zeros, or unsigned in base 16, 8 or 2, and fits a signed 64-bit word.  A number with a fraction or an
exponent is a double; one that is too large is refused, unless it is negative.

A time is kept as its normal text: a `T` between date and time of day, at most nine digits of a
second, no zeros at their end.
-/
import RequestQuery.Toml.Scan

namespace RequestQuery.Toml

set_option autoImplicit false

/-! ## Digits -/

/-- Further digits, each perhaps after an underscore; an underscore needs a digit after it. -/
def moreDigits? (isDigit : Char → Bool) : List Char → Option (List Char × List Char)
  | [] => some ([], [])
  | '_' :: d :: rest =>
      if isDigit d then (moreDigits? isDigit rest).map fun r => (d :: r.1, r.2) else none
  | d :: rest =>
      if isDigit d then (moreDigits? isDigit rest).map fun r => (d :: r.1, r.2)
      else if d = '_' then none
      else some ([], d :: rest)

/-- One or more digits. -/
def groupedDigits? (isDigit : Char → Bool) : List Char → Option (List Char × List Char)
  | d :: rest =>
      if isDigit d then (moreDigits? isDigit rest).map fun r => (d :: r.1, r.2) else none
  | [] => none

/-- A decimal number without leading zeros: a single zero or a run that starts with none. -/
def decimalDigits? : List Char → Option (List Char × List Char)
  | '0' :: rest => some (['0'], rest)
  | cs => groupedDigits? Char.isDigit cs

/-- An optional sign; `true` for a minus. -/
def sign : List Char → Bool × List Char
  | '-' :: rest => (true, rest)
  | '+' :: rest => (false, rest)
  | cs => (false, cs)

def digitsValue (base : Nat) (ds : List Char) : Nat :=
  ds.foldl (fun n d => n * base + (Json.Reader.hexDigit? d).getD 0) 0

/-! ## Integers -/

def word? (n : Int) : Option Int64 :=
  if -0x8000000000000000 ≤ n ∧ n < 0x8000000000000000 then some (Int64.ofInt n) else none

/-- An integer with a base of its own. -/
def basedInteger? (base : Nat) (isDigit : Char → Bool) (cs : List Char) :
    Option (Int64 × List Char) := do
  let (ds, rest) ← groupedDigits? isDigit cs
  let i ← word? (digitsValue base ds)
  pure (i, rest)

def integer? : List Char → Option (Int64 × List Char)
  | '0' :: 'x' :: rest => basedInteger? 16 (fun c => (Json.Reader.hexDigit? c).isSome) rest
  | '0' :: 'o' :: rest => basedInteger? 8 (fun c => '0' ≤ c && c ≤ '7') rest
  | '0' :: 'b' :: rest => basedInteger? 2 (fun c => c = '0' || c = '1') rest
  | cs => do
      let (negative, cs) := sign cs
      let (ds, rest) ← decimalDigits? cs
      let n : Int := digitsValue 10 ds
      let i ← word? (if negative then -n else n)
      pure (i, rest)

/-! ## Doubles -/

/-- A decimal significand with an exponent as a double; exponents far outside the range of doubles
are not worked out. -/
def scaled (significand : Nat) (digits : Nat) (exponent : Int) : Float :=
  if significand = 0 ∨ exponent + digits < -400 then 0.0
  else if 400 < exponent then 1.0 / 0.0
  else
    match exponent with
    | .ofNat e => Float.ofScientific significand false e
    | .negSucc e => Float.ofScientific significand true (e + 1)

/-- The digits of a fraction after its point. -/
def fraction? : List Char → Option (List Char × List Char)
  | '.' :: rest => groupedDigits? Char.isDigit rest
  | _ => none

/-- An exponent with its mark. -/
def exponent? : List Char → Option (Int × List Char)
  | c :: rest =>
      if c = 'e' ∨ c = 'E' then do
        let (negative, rest) := sign rest
        let (ds, rest) ← groupedDigits? Char.isDigit rest
        let n : Int := digitsValue 10 ds
        pure (if negative then -n else n, rest)
      else none
  | [] => none

/-- A number with a fraction, an exponent, or both. -/
def numeral? (cs : List Char) : Option (Float × List Char) := do
  let (negative, cs) := sign cs
  let (whole, rest) ← decimalDigits? cs
  let (fraction, exponent, rest) ←
    match exponent? rest, fraction? rest with
    | some (exponent, rest), _ => some ([], exponent, rest)
    | none, some (fraction, rest) =>
        match exponent? rest with
        | some (exponent, rest) => some (fraction, exponent, rest)
        | none => some (fraction, 0, rest)
    | none, none => none
  let digits := whole ++ fraction
  let x := scaled (digitsValue 10 digits) digits.length (exponent - fraction.length)
  if negative then pure (-x, rest)
  else if x.isInf then none
  else pure (x, rest)

/-- A word for a number that has no digits. -/
def special? (cs : List Char) : Option (Float × List Char) :=
  let (negative, cs) := sign cs
  let (x, rest) := match cs with
    | 'i' :: 'n' :: 'f' :: rest => (some (1.0 / 0.0 : Float), rest)
    | 'n' :: 'a' :: 'n' :: rest => (some (0.0 / 0.0 : Float), rest)
    | rest => (none, rest)
  x.map fun x => (if negative then -x else x, rest)

def double? (cs : List Char) : Option (Float × List Char) :=
  numeral? cs <|> special? cs

/-! ## Times -/

/-- A number of exactly so many digits, within bounds. -/
def fixedDigits? (count least greatest : Nat) (cs : List Char) : Option (Nat × List Char) :=
  let ds := cs.take count
  let n := digitsValue 10 ds
  if ds.length = count ∧ ds.all Char.isDigit ∧ least ≤ n ∧ n ≤ greatest then
    some (n, cs.drop count)
  else none

def after? (c : Char) : List Char → Option (List Char)
  | d :: rest => if d = c then some rest else none
  | [] => none

def isLeapYear (year : Nat) : Bool :=
  year % 4 = 0 && (year % 100 ≠ 0 || year % 400 = 0)

def daysIn (year month : Nat) : Nat :=
  if month = 2 then (if isLeapYear year then 29 else 28)
  else if month ∈ [4, 6, 9, 11] then 30
  else 31

def padded (width n : Nat) : String :=
  let ds := Nat.toDigits 10 n
  String.ofList (List.replicate (width - ds.length) '0' ++ ds)

def date? (cs : List Char) : Option (String × List Char) := do
  let (year, rest) ← fixedDigits? 4 0 9999 cs
  let rest ← after? '-' rest
  let (month, rest) ← fixedDigits? 2 1 12 rest
  let rest ← after? '-' rest
  let (day, rest) ← fixedDigits? 2 1 31 rest
  if daysIn year month < day then none
  else pure (padded 4 year ++ "-" ++ padded 2 month ++ "-" ++ padded 2 day, rest)

/-- The digits of a second after its point, in their normal text. -/
def secondFraction (cs : List Char) : String × List Char :=
  match cs with
  | '.' :: rest =>
      match rest.takeWhile Char.isDigit with
      | [] => ("", cs)
      | ds =>
          let kept := ((ds.take 9).reverse.dropWhile (· = '0')).reverse
          (if kept.isEmpty then "" else "." ++ String.ofList kept, rest.dropWhile Char.isDigit)
  | _ => ("", cs)

def timeOfDay? (cs : List Char) : Option (String × List Char) := do
  let (hour, rest) ← fixedDigits? 2 0 23 cs
  let rest ← after? ':' rest
  let (minute, rest) ← fixedDigits? 2 0 59 rest
  let rest ← after? ':' rest
  let (second, rest) ← fixedDigits? 2 0 60 rest
  let (fraction, rest) := secondFraction rest
  pure (padded 2 hour ++ ":" ++ padded 2 minute ++ ":" ++ padded 2 second ++ fraction, rest)

/-- The distance from universal time; a distance of nothing has a plus sign. -/
def offset? : List Char → Option (String × List Char)
  | c :: rest =>
      if c = 'Z' ∨ c = 'z' then some ("Z", rest)
      else if c = '+' ∨ c = '-' then do
        let (hour, rest) ← fixedDigits? 2 0 23 rest
        let rest ← after? ':' rest
        let (minute, rest) ← fixedDigits? 2 0 59 rest
        let mark := if c = '-' ∧ ¬(hour = 0 ∧ minute = 0) then "-" else "+"
        pure (mark ++ padded 2 hour ++ ":" ++ padded 2 minute, rest)
      else none
  | [] => none

def isTimeMark (c : Char) : Bool :=
  c = 'T' || c = 't' || c = ' '

/-- The time of day that follows a date, with its offset. -/
def timeAfterDate? : List Char → Option (String × List Char)
  | c :: rest =>
      if isTimeMark c then do
        let (time, rest) ← timeOfDay? rest
        match offset? rest with
        | some (offset, rest) => pure ("T" ++ time ++ offset, rest)
        | none => pure ("T" ++ time, rest)
      else none
  | [] => none

/-- A date, a time of day, or both. -/
def moment? (cs : List Char) : Option (String × List Char) :=
  match date? cs with
  | some (date, rest) =>
      match timeAfterDate? rest with
      | some (time, rest) => some (date ++ time, rest)
      | none => some (date, rest)
  | none => timeOfDay? cs

end RequestQuery.Toml
