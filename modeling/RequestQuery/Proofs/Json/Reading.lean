/-
# Strings and numbers are read as they are written

A character of a string is written with a short escape, as four hexadecimal digits or as itself; in
each form it is read as itself (`stringTail_escapedChar`), so the characters up to the closing quote
are those of the string (`stringTail_escaped`).

A number has no mark at its end, so every part of it takes what it can get.  But no part takes
anything of a comma, a bracket or a brace: what a number is read as does not depend on what follows
there (`stopsAtEnd_number?`).  The digits of an integer have no superfluous zero in front, and an
integer that fits a word is read as itself (`number?_integerChars`).
-/
import Mathlib.Data.List.TakeWhile
import RequestQuery.Json.Printer
import RequestQuery.Json.Reader
import RequestQuery.Proofs.Decimal.Text

namespace RequestQuery.Json.Reader

set_option autoImplicit false

/-! ## Strings -/

theorem stringTail_simpleEscape {e c : Char} (simple : simpleEscape? e = some c) (cs : List Char) :
    stringTail ('\\' :: e :: cs) = (stringTail cs).map fun r => (c :: r.1, r.2) := by
  have notHex : e ≠ 'u' := by
    rintro rfl
    simp [simpleEscape?] at simple
  rw [stringTail.eq_4 _ _ (fun _ _ _ _ _ same _ => notHex same), simple]

theorem stringTail_unicodeEscape {n : Nat} (control : n < 0x20) (cs : List Char) :
    stringTail (unicodeEscape n ++ cs) =
      (stringTail cs).map fun r => (Char.ofNat n :: r.1, r.2) := by
  have digits : hex4? '0' '0' (Nat.digitChar (n / 16)) (Nat.digitChar (n % 16)) = some n := by
    revert n
    decide
  have notHigh : isHighSurrogate n = false := by
    simp only [isHighSurrogate, Bool.and_eq_false_iff, decide_eq_false_iff_not]
    omega
  have notLow : isLowSurrogate n = false := by
    simp only [isLowSurrogate, Bool.and_eq_false_iff, decide_eq_false_iff_not]
    omega
  simp only [unicodeEscape, List.cons_append, List.nil_append]
  rw [stringTail, digits]
  simp [notHigh, notLow]

/-- A character that needs no escape stands for itself. -/
theorem stringTail_plain {c : Char} (notQuote : c ≠ '"') (notBackslash : c ≠ '\\')
    (notControl : ¬ c.toNat < 0x20) (cs : List Char) :
    stringTail (c :: cs) = (stringTail cs).map fun r => (c :: r.1, r.2) := by
  rw [stringTail.eq_5 _ _ notQuote (fun _ _ _ _ _ same _ => notBackslash same)
    (fun _ _ same _ => notBackslash same), if_neg (not_or.2 ⟨notControl, notBackslash⟩)]

/-- However a character is written, it is read as itself. -/
theorem stringTail_escapedChar (c : Char) (cs : List Char) :
    stringTail (escapedChar c ++ cs) = (stringTail cs).map fun r => (c :: r.1, r.2) := by
  rw [escapedChar]
  split
  next quote => exact stringTail_simpleEscape (by rw [quote]; rfl) cs
  next notQuote =>
  split
  next backslash => exact stringTail_simpleEscape (by rw [backslash]; rfl) cs
  next notBackslash =>
  split
  next control =>
    have code {n : Nat} (isCode : c.toNat = n) : Char.ofNat n = c := by
      rw [← isCode, Char.ofNat_toNat]
    split
    case h_6 =>
      rw [stringTail_unicodeEscape control, code rfl]
    all_goals
      next isCode => exact stringTail_simpleEscape (by rw [← code isCode]; rfl) cs
  next notControl => exact stringTail_plain notQuote notBackslash notControl cs

/-- The characters of a string up to its closing quote are its characters. -/
theorem stringTail_escaped (cs rest : List Char) :
    stringTail (cs.flatMap escapedChar ++ '"' :: rest) = some (cs, rest) := by
  induction cs with
  | nil => rfl
  | cons c cs ih =>
      rw [List.flatMap_cons, List.append_assoc, stringTail_escapedChar, ih, Option.map_some]

/-! ## Where a number ends -/

/-- What follows a value in an array or an object, or nothing at all. -/
def Ends (rest : List Char) : Prop :=
  ∀ c ∈ rest.head?, c = ',' ∨ c = ']' ∨ c = '\x7d'

theorem ends_nil : Ends [] := fun _ member => nomatch member

theorem ends_cons {c : Char} (closing : c = ',' ∨ c = ']' ∨ c = '\x7d') (rest : List Char) :
    Ends (c :: rest) := by
  rintro _ ⟨⟩
  exact closing

theorem Ends.cases {rest : List Char} (ends : Ends rest) :
    rest = [] ∨ (∃ cs, rest = ',' :: cs) ∨ (∃ cs, rest = ']' :: cs) ∨ ∃ cs, rest = '\x7d' :: cs := by
  rcases rest with _ | ⟨c, cs⟩
  · exact .inl rfl
  · rcases ends c rfl with rfl | rfl | rfl
    · exact .inr (.inl ⟨cs, rfl⟩)
    · exact .inr (.inr (.inl ⟨cs, rfl⟩))
    · exact .inr (.inr (.inr ⟨cs, rfl⟩))

/-- What a reader makes of a text does not depend on what follows the end of the value. -/
def StopsAtEnd {α : Type} (read : List Char → Option (α × List Char)) : Prop :=
  ∀ cs rest, Ends rest → read (cs ++ rest) = (read cs).map fun r => (r.1, r.2 ++ rest)

/-- No digit stands at the end of a value, so a run of digits does not go on there. -/
theorem digitRun_append {rest : List Char} (ends : Ends rest) (cs : List Char) :
    digitRun (cs ++ rest) = ((digitRun cs).1, (digitRun cs).2 ++ rest) := by
  induction cs with
  | nil => rcases ends.cases with rfl | ⟨_, rfl⟩ | ⟨_, rfl⟩ | ⟨_, rfl⟩ <;> rfl
  | cons c cs ih =>
      simp only [digitRun, Prod.mk.injEq] at ih ⊢
      rw [List.cons_append, List.takeWhile_cons, List.takeWhile_cons, List.dropWhile_cons,
        List.dropWhile_cons]
      by_cases digit : c.isDigit = true
      · simp [digit, ih]
      · simp [digit]

theorem stopsAtEnd_wholePart? : StopsAtEnd wholePart? := by
  intro cs rest ends
  rw [wholePart?, wholePart?, digitRun_append ends]
  rcases digitRun cs with ⟨ds, left⟩
  dsimp only
  split <;> simp_all

theorem fraction?_of_ne {c : Char} (noPoint : c ≠ '.') (cs : List Char) :
    fraction? (c :: cs) = some ([], c :: cs) := by
  unfold fraction?
  split
  next same => exact absurd (List.cons.inj same).1 noPoint
  next => rfl

theorem stopsAtEnd_fraction? : StopsAtEnd fraction? := by
  intro cs rest ends
  cases cs with
  | nil => rcases ends.cases with rfl | ⟨_, rfl⟩ | ⟨_, rfl⟩ | ⟨_, rfl⟩ <;> rfl
  | cons c cs =>
      rw [List.cons_append]
      by_cases point : c = '.'
      · subst point
        simp only [fraction?]
        rw [digitRun_append ends]
        rcases digitRun cs with ⟨ds, left⟩
        cases ds <;> rfl
      · rw [fraction?_of_ne point, fraction?_of_ne point, Option.map_some, List.cons_append]

/-- The digits of an exponent after its sign. -/
def exponentDigits? (negative : Bool) (cs : List Char) : Option (Int × List Char) :=
  match digitRun cs with
  | ([], _) => none
  | (ds, rest) =>
      let n : Int := Nat.ofDigitChars 10 ds 0
      some (if negative then -n else n, rest)

theorem exponentTail?_of_ne {c : Char} (noMinus : c ≠ '-') (noPlus : c ≠ '+') (cs : List Char) :
    exponentTail? (c :: cs) = exponentDigits? false (c :: cs) := by
  rw [exponentTail?]
  · rfl
  · exact fun _ same => noMinus (List.cons.inj same).1
  · exact fun _ same => noPlus (List.cons.inj same).1

theorem stopsAtEnd_exponentDigits? (negative : Bool) : StopsAtEnd (exponentDigits? negative) := by
  intro cs rest ends
  rw [exponentDigits?, exponentDigits?, digitRun_append ends]
  rcases digitRun cs with ⟨ds, left⟩
  cases ds <;> rfl

theorem stopsAtEnd_exponentTail? : StopsAtEnd exponentTail? := by
  intro cs rest ends
  cases cs with
  | nil => rcases ends.cases with rfl | ⟨_, rfl⟩ | ⟨_, rfl⟩ | ⟨_, rfl⟩ <;> rfl
  | cons c cs =>
      by_cases minus : c = '-'
      · subst minus
        exact stopsAtEnd_exponentDigits? true cs rest ends
      by_cases plus : c = '+'
      · subst plus
        exact stopsAtEnd_exponentDigits? false cs rest ends
      have unsigned := stopsAtEnd_exponentDigits? false (c :: cs) rest ends
      rw [List.cons_append] at unsigned ⊢
      rw [exponentTail?_of_ne minus plus, exponentTail?_of_ne minus plus, unsigned]

theorem stopsAtEnd_exponent? : StopsAtEnd exponent? := by
  intro cs rest ends
  cases cs with
  | nil => rcases ends.cases with rfl | ⟨_, rfl⟩ | ⟨_, rfl⟩ | ⟨_, rfl⟩ <;> rfl
  | cons c cs =>
      rw [List.cons_append, exponent?, exponent?]
      split
      · rw [stopsAtEnd_exponentTail? cs rest ends, Option.map_map, Option.map_map]
        rfl
      · rfl

/-- A number after its sign. -/
def unsigned? (negative : Bool) (cs : List Char) : Option (Number × List Char) := do
  let (whole, rest) ← wholePart? cs
  let (fraction, rest) ← fraction? rest
  let (exponent, rest) ← exponent? rest
  let asDouble := double? negative whole fraction (exponent.getD 0)
  let n ← match fraction, exponent with
    | [], none => (integer? negative whole).or asDouble
    | _, _ => asDouble
  pure (n, rest)

theorem number?_of_ne {c : Char} (noMinus : c ≠ '-') (cs : List Char) :
    number? (c :: cs) = unsigned? false (c :: cs) := by
  unfold number?
  split
  next sign =>
    split at sign
    next same => exact absurd (List.cons.inj same).1 noMinus
    next =>
      cases sign
      rfl

theorem stopsAtEnd_unsigned? (negative : Bool) : StopsAtEnd (unsigned? negative) := by
  intro cs rest ends
  rw [unsigned?, unsigned?, stopsAtEnd_wholePart? cs rest ends]
  rcases wholePart? cs with _ | ⟨whole, left⟩
  · rfl
  simp only [Option.map_some, Option.bind_eq_bind, Option.bind_some]
  rw [stopsAtEnd_fraction? left rest ends]
  rcases fraction? left with _ | ⟨fraction, left⟩
  · rfl
  simp only [Option.map_some, Option.bind_some]
  rw [stopsAtEnd_exponent? left rest ends]
  rcases exponent? left with _ | ⟨exponent, left⟩
  · rfl
  simp only [Option.map_some, Option.bind_some]
  generalize integer? negative whole = asInteger, double? _ _ _ _ = asDouble
  split
  · cases asInteger.or asDouble <;> rfl
  · cases asDouble <;> rfl

theorem stopsAtEnd_number? : StopsAtEnd number? := by
  intro cs rest ends
  cases cs with
  | nil => rcases ends.cases with rfl | ⟨_, rfl⟩ | ⟨_, rfl⟩ | ⟨_, rfl⟩ <;> rfl
  | cons c cs =>
      by_cases minus : c = '-'
      · subst minus
        exact stopsAtEnd_unsigned? true cs rest ends
      have unsigned := stopsAtEnd_unsigned? false (c :: cs) rest ends
      rw [List.cons_append] at unsigned ⊢
      rw [number?_of_ne minus, number?_of_ne minus, unsigned]

/-! ## Integers -/

/-- Digits do not start with a zero, but for that of zero itself. -/
theorem head?_toDigits_ne {n : Nat} (positive : 0 < n) :
    (Nat.toDigits 10 n).head? ≠ some '0' := by
  induction n using Nat.strongRecOn with
  | ind n ih =>
      rcases Nat.lt_or_ge n 10 with small | large
      · rw [Nat.toDigits_of_lt_base small]
        have table : ∀ n < 10, 0 < n → [Nat.digitChar n].head? ≠ some '0' := by decide
        exact table n small positive
      · have fewer : n / 10 < n := by omega
        rw [Nat.toDigits_of_base_le (by decide) large,
          List.head?_append_of_ne_nil _ Nat.toDigits_ne_nil]
        exact ih (n / 10) fewer (by omega)

theorem digitRun_of_digits {ds : List Char} (digits : Decimal.AreDigits ds) :
    digitRun ds = (ds, []) := by
  rw [digitRun, List.takeWhile_eq_self_iff.2 digits, List.dropWhile_eq_nil_iff.2 digits]

theorem wholePart?_toDigits (n : Nat) :
    wholePart? (Nat.toDigits 10 n) = some (Nat.toDigits 10 n, []) := by
  rcases Nat.eq_zero_or_pos n with rfl | positive
  · rfl
  have noZero := head?_toDigits_ne positive
  rw [wholePart?, digitRun_of_digits (Decimal.areDigits_toDigits n)]
  split
  next same => exact absurd (Prod.mk.inj same).1 Nat.toDigits_ne_nil
  next same =>
    rw [(Prod.mk.inj same).1] at noZero
    exact absurd rfl noZero
  next same =>
    rw [(Prod.mk.inj same).1] at noZero
    exact absurd rfl noZero
  next => rfl

theorem unsigned?_toDigits {negative : Bool} {n : Nat} {number : Number}
    (word : integer? negative (Nat.toDigits 10 n) = some number) :
    unsigned? negative (Nat.toDigits 10 n) = some (number, []) := by
  simp [unsigned?, wholePart?_toDigits, fraction?, exponent?, word]

/-- An integer of a word is read as itself. -/
theorem number?_integerChars {n : Int} (isWord : IsWord n) :
    number? (Decimal.integerChars n) = some (.integer n isWord, []) := by
  cases n with
  | ofNat n =>
      obtain ⟨first, rest, text, isDigit⟩ := Decimal.exists_first_toDigits n
      have noMinus : first ≠ '-' := by
        rintro rfl
        cases isDigit
      have word : integer? false (Nat.toDigits 10 n) = some (.integer (.ofNat n) isWord) := by
        have fits : IsWord (n : Int) := isWord
        simp [integer?, Nat.ofDigitChars_ten_toDigits, Number.ofInt?, fits]
      have read := unsigned?_toDigits word
      rw [Decimal.integerChars]
      rw [text] at read ⊢
      rw [number?_of_ne noMinus, read]
  | negSucc n =>
      have word : integer? true (Nat.toDigits 10 (n + 1)) = some (.integer (.negSucc n) isWord) := by
        have some : ((n + 1 : Nat) : Int) ≠ 0 := by omega
        have fits : IsWord (-((n + 1 : Nat) : Int)) := isWord
        simp only [integer?, Nat.ofDigitChars_ten_toDigits, if_true, if_neg some, Number.ofInt?,
          dif_pos fits]
        rfl
      exact unsigned?_toDigits word

end RequestQuery.Json.Reader
