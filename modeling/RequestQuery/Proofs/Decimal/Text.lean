/-
# The text of a double stands for a number

A decimal text is read in the usual way (`textValue`): a sign, digits with a point in them, a power
of ten.  Nothing of a double is lost in its text.  However the digits are laid out, with the point
in place or with an exponent, the text stands for the shortest decimal, and this one rounds to the
double (`exists_rounds_doubleChars`).  So doubles of different values have different texts
(`value_eq_of_doubleChars_eq`), and none is written like a whole number
(`doubleChars_ne_integerChars`).
-/
import RequestQuery.Decimal.Whole
import RequestQuery.Proofs.Decimal.Shortest
import RequestQuery.Text.Blank

namespace RequestQuery.Decimal

set_option autoImplicit false

/-! ## Reading a decimal text -/

def digitsValue (ds : List Char) : Nat :=
  Nat.ofDigitChars 10 ds 0

/-- Digits, with or without a point in them. -/
def pointValue (cs : List Char) : ℚ :=
  match Text.cutChars '.' cs with
  | some (whole, fraction) => digitsValue (whole ++ fraction) / 10 ^ fraction.length
  | none => digitsValue cs

/-- Digits after a sign. -/
def exponentValue : List Char → Int
  | '-' :: ds => -(digitsValue ds : Int)
  | _ :: ds => digitsValue ds
  | [] => 0

/-- Digits, with or without a power of ten after them. -/
def unsignedValue (cs : List Char) : ℚ :=
  match Text.cutChars 'e' cs with
  | some (digits, exponent) => pointValue digits * 10 ^ exponentValue exponent
  | none => pointValue cs

/-- The number that a decimal text stands for. -/
def textValue : List Char → ℚ
  | '-' :: cs => -unsignedValue cs
  | cs => unsignedValue cs

/-! ## Runs of digits -/

def AreDigits (cs : List Char) : Prop :=
  ∀ c ∈ cs, c.isDigit = true

theorem areDigits_toDigits (n : Nat) : AreDigits (Nat.toDigits 10 n) :=
  fun _ member => Nat.isDigit_of_mem_toDigits (by decide) (by decide) member

theorem exists_first_toDigits (n : Nat) :
    ∃ first rest, Nat.toDigits 10 n = first :: rest ∧ first.isDigit = true := by
  obtain ⟨first, rest, text⟩ := List.exists_cons_of_ne_nil (@Nat.toDigits_ne_nil n 10)
  refine ⟨first, rest, text, areDigits_toDigits n first ?_⟩
  rw [text]
  exact List.mem_cons_self

theorem AreDigits.append {cs ds : List Char} (first : AreDigits cs) (second : AreDigits ds) :
    AreDigits (cs ++ ds) :=
  List.forall_mem_append.2 ⟨first, second⟩

theorem AreDigits.sublist {cs ds : List Char} (digits : AreDigits ds) (part : cs.Sublist ds) :
    AreDigits cs :=
  fun c member => digits c (part.subset member)

theorem areDigits_zeros (n : Nat) : AreDigits (List.replicate n '0') := by
  intro c member
  rw [List.eq_of_mem_replicate member]
  rfl

theorem AreDigits.not_mem {cs : List Char} (digits : AreDigits cs) {c : Char}
    (other : c.isDigit = false) : c ∉ cs := by
  intro member
  rw [digits c member] at other
  cases other

theorem digitsValue_append (cs ds : List Char) :
    digitsValue (cs ++ ds) = digitsValue cs * 10 ^ ds.length + digitsValue ds := by
  rw [digitsValue, Nat.ofDigitChars_append, Nat.ofDigitChars_eq_ofDigitChars_zero, mul_comm]
  rfl

theorem digitsValue_zeros (n : Nat) : digitsValue (List.replicate n '0') = 0 := by
  rw [digitsValue, Nat.ofDigitChars_replicate_zero, mul_zero]

theorem digitsValue_toDigits (n : Nat) : digitsValue (Nat.toDigits 10 n) = n :=
  Nat.ofDigitChars_ten_toDigits

/-! ## Cutting a text in two -/

theorem cutChars_append {sep : Char} {front : List Char} (absent : sep ∉ front)
    (back : List Char) : Text.cutChars sep (front ++ sep :: back) = some (front, back) := by
  induction front with
  | nil => rw [List.nil_append, Text.cutChars, if_pos rfl]
  | cons c front ih =>
      rw [List.mem_cons, not_or] at absent
      rw [List.cons_append, Text.cutChars, if_neg (Ne.symm absent.1), ih absent.2]
      rfl

theorem cutChars_of_not_mem {sep : Char} {cs : List Char} (absent : sep ∉ cs) :
    Text.cutChars sep cs = none := by
  induction cs with
  | nil => rfl
  | cons c cs ih =>
      rw [List.mem_cons, not_or] at absent
      rw [Text.cutChars, if_neg (Ne.symm absent.1), ih absent.2]
      rfl

theorem pointValue_append {whole : List Char} (digits : AreDigits whole) (fraction : List Char) :
    pointValue (whole ++ '.' :: fraction) =
      digitsValue (whole ++ fraction) / 10 ^ fraction.length := by
  rw [pointValue, cutChars_append (digits.not_mem rfl)]

theorem pointValue_of_digits {ds : List Char} (digits : AreDigits ds) :
    pointValue ds = digitsValue ds := by
  rw [pointValue, cutChars_of_not_mem (digits.not_mem rfl)]

/-! ## Significands -/

namespace Significand

/-- The point stands after the first digit, which is multiplied by the power of ten. -/
def value (s : Significand) : ℚ :=
  digitsValue s.digits * 10 ^ (s.exponent + 1 - s.digits.length)

/-- One digit or more. -/
structure Proper (s : Significand) : Prop where
  nonempty : s.digits ≠ []
  digits : AreDigits s.digits

end Significand

/-- Zeros are taken off the end, but one is left of nothing else. -/
theorem stripZeros_cases (ds : List Char) :
    (∃ n, ds = List.replicate n '0' ∧ stripZeros ds = ['0']) ∨
      ∃ n, ds = stripZeros ds ++ List.replicate n '0' ∧ stripZeros ds ≠ [] := by
  have zeros : ∀ c ∈ ds.reverse.takeWhile (· = '0'), c = '0' := by
    intro c member
    exact of_decide_eq_true (List.all_eq_true.1 (List.all_takeWhile) c member)
  have whole : ds = (ds.reverse.dropWhile (· = '0')).reverse ++
      List.replicate (ds.reverse.takeWhile (· = '0')).length '0' := by
    have cut := congrArg List.reverse
      (List.takeWhile_append_dropWhile (p := (decide <| · = '0')) (l := ds.reverse))
    rw [List.reverse_append, List.reverse_reverse, List.eq_replicate_of_mem zeros,
      List.reverse_replicate] at cut
    exact cut.symm
  rcases kept : (ds.reverse.dropWhile (· = '0')).reverse with _ | ⟨c, cs⟩
  · rw [kept, List.nil_append] at whole
    exact .inl ⟨_, whole, by rw [stripZeros, kept]⟩
  · have same : stripZeros ds = c :: cs := by rw [stripZeros, kept]
    refine .inr ⟨(ds.reverse.takeWhile (· = '0')).length, ?_, ?_⟩
    · rw [same, ← kept]
      exact whole
    · rw [same]
      exact List.cons_ne_nil c cs

namespace Scientific

theorem proper_significand (s : Scientific) : s.significand.Proper := by
  have digits := areDigits_toDigits s.digits
  rcases stripZeros_cases (Nat.toDigits 10 s.digits) with ⟨n, _, zero⟩ | ⟨n, whole, some⟩
  · constructor
    case nonempty =>
      change stripZeros _ ≠ []
      rw [zero]
      exact List.cons_ne_nil _ _
    case digits =>
      change AreDigits (stripZeros _)
      rw [zero]
      exact areDigits_zeros 1
  · have part := List.sublist_append_left (stripZeros (Nat.toDigits 10 s.digits))
      (List.replicate n '0')
    rw [← whole] at part
    exact ⟨some, digits.sublist part⟩

theorem value_significand (s : Scientific) : s.significand.value = s.digits * 10 ^ s.exponent := by
  have natural := digitsValue_toDigits s.digits
  have ten : (10 : ℚ) ≠ 0 := by norm_num
  simp only [Significand.value, significand]
  rcases stripZeros_cases (Nat.toDigits 10 s.digits) with ⟨n, whole, zero⟩ | ⟨n, whole, some⟩
  · rw [whole, digitsValue_zeros] at natural
    rw [zero, ← natural]
    norm_num [digitsValue, Nat.ofDigitChars]
  · have length : (Nat.toDigits 10 s.digits).length =
        (stripZeros (Nat.toDigits 10 s.digits)).length + n := by
      rw [congrArg List.length whole, List.length_append, List.length_replicate]
    rw [whole, digitsValue_append, digitsValue_zeros, List.length_replicate] at natural
    rw [length]
    generalize stripZeros (Nat.toDigits 10 s.digits) = kept at natural
    have power : s.exponent + (((kept.length + n : Nat) : Int) - 1) + 1 - kept.length =
        s.exponent + n := by
      push_cast
      ring
    rw [power, zpow_add₀ ten, zpow_natCast, ← natural]
    push_cast
    ring

end Scientific

namespace Significand

variable {s : Significand}

theorem value_eq_mul {n : Nat} (places : s.exponent + 1 - s.digits.length = n) :
    s.value = digitsValue s.digits * 10 ^ n := by
  rw [value, places, zpow_natCast]

theorem value_eq_div {n : Nat} (places : s.exponent + 1 - s.digits.length = -n) :
    s.value = digitsValue s.digits / 10 ^ n := by
  rw [value, places, zpow_neg, zpow_natCast, div_eq_mul_inv]

/-- Digits on both sides of a point, which stand for a number. -/
def Pointed (cs : List Char) (q : ℚ) : Prop :=
  ∃ whole fraction, cs = whole ++ '.' :: fraction ∧ whole ≠ [] ∧
    AreDigits whole ∧ AreDigits fraction ∧
    (digitsValue (whole ++ fraction) : ℚ) / 10 ^ fraction.length = q

/-- The characters of a power of ten. -/
def powerChars : Int → List Char
  | .ofNat e => '+' :: Nat.toDigits 10 e
  | .negSucc e => '-' :: Nat.toDigits 10 (e + 1)

theorem exponentValue_powerChars (e : Int) : exponentValue (powerChars e) = e := by
  cases e with
  | ofNat e => exact congrArg Int.ofNat (digitsValue_toDigits e)
  | negSucc e => exact congrArg (fun n : Nat => -(n : Int)) (digitsValue_toDigits (e + 1))

variable (proper : s.Proper)

include proper

/-- All digits stand before the point, perhaps with zeros after them. -/
theorem pointed_of_short {e : Nat} (exponent : s.exponent = .ofNat e)
    (short : s.digits.length ≤ e + 1) : Pointed s.positional s.value := by
  have digits := proper.digits
  have places : s.exponent + 1 - s.digits.length = ((e + 1 - s.digits.length : Nat) : Int) := by
    rw [exponent, Int.ofNat_eq_natCast]
    omega
  refine ⟨s.digits ++ List.replicate (e + 1 - s.digits.length) '0', ['0'], ?_, ?_,
    digits.append (areDigits_zeros _), areDigits_zeros 1, ?_⟩
  · simp [positional, exponent, List.take_of_length_le short, List.drop_of_length_le short]
  · exact List.append_ne_nil_of_left_ne_nil proper.nonempty _
  · rw [value_eq_mul places, digitsValue_append, digitsValue_append, digitsValue_zeros,
      List.length_replicate]
    norm_num [digitsValue, Nat.ofDigitChars]

/-- The point stands between the digits. -/
theorem pointed_of_long {e : Nat} (exponent : s.exponent = .ofNat e)
    (long : e + 1 < s.digits.length) : Pointed s.positional s.value := by
  have digits := proper.digits
  have places : s.exponent + 1 - s.digits.length =
      -((s.digits.length - (e + 1) : Nat) : Int) := by
    rw [exponent, Int.ofNat_eq_natCast]
    omega
  refine ⟨s.digits.take (e + 1), s.digits.drop (e + 1), ?_, ?_,
    digits.sublist (List.take_sublist _ _), digits.sublist (List.drop_sublist _ _), ?_⟩
  · have whole : (s.digits.take (e + 1)).length = e + 1 := by
      rw [List.length_take]
      omega
    have more : (s.digits.drop (e + 1)).isEmpty = false := by
      rw [List.isEmpty_eq_false_iff, ne_eq, List.drop_eq_nil_iff]
      omega
    simp [positional, exponent, whole, more]
  · rw [ne_eq, List.take_eq_nil_iff, not_or]
    exact ⟨Nat.succ_ne_zero e, proper.nonempty⟩
  · rw [value_eq_div places, List.take_append_drop, List.length_drop]

/-- All digits stand after the point, and zeros before them. -/
theorem pointed_of_small {e : Nat} (exponent : s.exponent = .negSucc e) :
    Pointed s.positional s.value := by
  have digits := proper.digits
  have nonempty := List.length_pos_of_ne_nil proper.nonempty
  have places : s.exponent + 1 - s.digits.length = -((e + s.digits.length : Nat) : Int) := by
    rw [exponent, Int.negSucc_eq]
    omega
  refine ⟨['0'], List.replicate e '0' ++ s.digits, ?_, List.cons_ne_nil _ _, areDigits_zeros 1,
    (areDigits_zeros e).append digits, ?_⟩
  · simp [positional, exponent]
  · rw [value_eq_div places, digitsValue_append, digitsValue_append, digitsValue_zeros,
      List.length_append, List.length_replicate]
    norm_num [digitsValue, Nat.ofDigitChars]

theorem pointed_positional : Pointed s.positional s.value := by
  cases exponent : s.exponent with
  | ofNat e =>
      rcases Nat.lt_or_ge (e + 1) s.digits.length with long | short
      · exact pointed_of_long proper exponent long
      · exact pointed_of_short proper exponent short
  | negSucc e => exact pointed_of_small proper exponent

theorem unsignedValue_positional : unsignedValue s.positional = s.value := by
  obtain ⟨whole, fraction, text, -, digits, more, value⟩ := pointed_positional proper
  have noPower : 'e' ∉ whole ++ '.' :: fraction := by
    rw [List.mem_append, List.mem_cons, not_or, not_or]
    exact ⟨digits.not_mem rfl, by decide, more.not_mem rfl⟩
  rw [text, unsignedValue, cutChars_of_not_mem noPower]
  exact (pointValue_append digits fraction).trans value

/-- One digit stands before the point, and there is a power of ten. -/
theorem scientific_eq :
    ∃ first rest, s.scientific = (first :: rest) ++ 'e' :: powerChars s.exponent ∧
      first.isDigit = true ∧ 'e' ∉ first :: rest ∧
      pointValue (first :: rest) * 10 ^ s.exponent = s.value := by
  obtain ⟨digits, exponent⟩ := s
  obtain ⟨first, others, rfl⟩ := List.exists_cons_of_ne_nil proper.nonempty
  have all : AreDigits (first :: others) := proper.digits
  have isDigit := all first List.mem_cons_self
  have ten : (10 : ℚ) ≠ 0 := by norm_num
  cases others with
  | nil =>
      refine ⟨first, [], rfl, isDigit, all.not_mem rfl, ?_⟩
      rw [pointValue_of_digits all, value]
      simp
  | cons next others =>
      have few : AreDigits [first] := all.sublist (by simp)
      have more : AreDigits (next :: others) := all.sublist (List.sublist_cons_self _ _)
      refine ⟨first, '.' :: next :: others, rfl, isDigit, ?_, ?_⟩
      · rw [List.mem_cons, List.mem_cons, not_or, not_or]
        exact ⟨fun same => few.not_mem rfl (List.mem_singleton.2 same), by decide, more.not_mem rfl⟩
      · have layout := pointValue_append few (next :: others)
        rw [List.singleton_append, List.singleton_append] at layout
        have places : exponent + 1 - ((first :: next :: others).length : Int) =
            exponent + -((next :: others).length : Int) := by
          simp only [List.length_cons]
          push_cast
          ring
        rw [layout, value, places, zpow_add₀ ten, zpow_neg, zpow_natCast]
        ring

theorem unsignedValue_scientific : unsignedValue s.scientific = s.value := by
  obtain ⟨first, rest, text, -, noPower, value⟩ := scientific_eq proper
  rw [text, unsignedValue, cutChars_append noPower]
  simp only [exponentValue_powerChars]
  exact value

end Significand

/-! ## The text of a double -/

/-- Also the digits of zero are proper. -/
theorem Binary64.proper_shortest (x : Binary64) : x.shortest.Proper := by
  have zero : (⟨['0'], 0⟩ : Significand).Proper := ⟨List.cons_ne_nil _ _, areDigits_zeros 1⟩
  unfold Binary64.shortest
  split
  · exact zero
  · split
    · exact Scientific.proper_significand _
    · exact zero

/-- The value of the shortest decimal rounds to the double, and that of zero does as well. -/
theorem Binary64.Canonical.rounds_shortest {x : Binary64} (canonical : x.Canonical) :
    x.Rounds x.shortest.value := by
  by_cases zero : x.mantissa = 0
  · have none : x.shortest.value = 0 := by
      rw [Binary64.shortest, if_pos zero]
      norm_num [Significand.value, digitsValue, Nat.ofDigitChars]
    have gap := x.gap_pos
    have ulp := x.ulp_pos
    refine Binary64.rounds_of_lt ?_ ?_
    all_goals
      rw [none, Binary64.magnitude_eq_zero_iff.2 zero]
      linarith
  · obtain ⟨s, found, rounds⟩ := Binary64.exists_shortest canonical zero
    rw [found, Scientific.value_significand]
    exact rounds

/-- The text of a double without its sign. -/
def unsignedChars (x : Float) : List Char :=
  let s := (Binary64.ofFloat x).shortest
  if leastPositional ≤ s.exponent ∧ s.exponent < leastScientific then s.positional
  else s.scientific

theorem doubleChars_eq (x : Float) :
    doubleChars x =
      (if (Binary64.ofFloat x).negative then ['-'] else []) ++ unsignedChars x := rfl

/-- In both layouts a digit stands first, and something that is no digit follows. -/
theorem unsignedChars_cases (x : Float) :
    (∃ first rest, unsignedChars x = first :: rest ∧ first.isDigit = true) ∧
      ('.' ∈ unsignedChars x ∨ 'e' ∈ unsignedChars x) ∧
      unsignedValue (unsignedChars x) = (Binary64.ofFloat x).shortest.value := by
  have proper := (Binary64.ofFloat x).proper_shortest
  unfold unsignedChars
  generalize (Binary64.ofFloat x).shortest = s at proper
  dsimp only
  split
  · obtain ⟨whole, fraction, text, nonempty, digits, -⟩ := Significand.pointed_positional proper
    obtain ⟨first, rest, rfl⟩ := List.exists_cons_of_ne_nil nonempty
    refine ⟨⟨first, _, text, digits first List.mem_cons_self⟩, .inl ?_,
      Significand.unsignedValue_positional proper⟩
    rw [text]
    exact List.mem_append_right _ List.mem_cons_self
  · obtain ⟨first, rest, text, isDigit, -⟩ := Significand.scientific_eq proper
    refine ⟨⟨first, _, text, isDigit⟩, .inr ?_, Significand.unsignedValue_scientific proper⟩
    rw [text]
    exact List.mem_append_right _ List.mem_cons_self

theorem textValue_of_digit {first : Char} (isDigit : first.isDigit = true) (rest : List Char) :
    textValue (first :: rest) = unsignedValue (first :: rest) := by
  unfold textValue
  split
  next same =>
    cases same
    cases isDigit
  next => rfl

/-- **The text of a double stands for a number that rounds to it.** -/
theorem exists_rounds_doubleChars (x : Float) :
    ∃ d : ℚ, (Binary64.ofFloat x).Rounds d ∧
      textValue (doubleChars x) = if (Binary64.ofFloat x).negative then -d else d := by
  obtain ⟨⟨first, rest, text, isDigit⟩, -, value⟩ := unsignedChars_cases x
  refine ⟨_, (Binary64.canonical_ofBits _).rounds_shortest, ?_⟩
  rw [doubleChars_eq]
  split
  · exact congrArg Neg.neg value
  · rw [List.nil_append, text, textValue_of_digit isDigit, ← text]
    exact value

/-- The sign is the first character of the text, if there is one. -/
theorem negative_iff_head? (x : Float) :
    (Binary64.ofFloat x).negative = true ↔ (doubleChars x).head? = some '-' := by
  obtain ⟨⟨first, rest, text, isDigit⟩, -⟩ := unsignedChars_cases x
  rw [doubleChars_eq]
  split
  next negative => exact iff_of_true negative rfl
  next notNegative =>
    refine iff_of_false notNegative ?_
    rw [List.nil_append, text]
    intro same
    cases same
    cases isDigit

/-- **Doubles with the same text have the same value.** -/
theorem value_eq_of_doubleChars_eq {x y : Float} (same : doubleChars x = doubleChars y) :
    (Binary64.ofFloat x).value = (Binary64.ofFloat y).value := by
  have signs : (Binary64.ofFloat x).negative = (Binary64.ofFloat y).negative := by
    rw [Bool.eq_iff_iff, negative_iff_head?, negative_iff_head?, same]
  obtain ⟨d, rx, valueX⟩ := exists_rounds_doubleChars x
  obtain ⟨d', ry, valueY⟩ := exists_rounds_doubleChars y
  have decimals : d = d' := by
    rw [same, valueY, signs] at valueX
    split at valueX
    · exact (neg_inj.1 valueX).symm
    · exact valueX.symm
  subst decimals
  have magnitudes := (Binary64.canonical_ofBits _).magnitude_eq_of_rounds
    (Binary64.canonical_ofBits _) rx ry
  rw [Binary64.ofFloat, Binary64.ofFloat] at signs ⊢
  rw [Binary64.value, Binary64.value, signs, magnitudes]

/-- Zero has a text for each of its signs; other values have only one. -/
theorem doubleChars_eq_of_value_eq {x y : Float}
    (same : (Binary64.ofFloat x).value = (Binary64.ofFloat y).value)
    (some : (Binary64.ofFloat x).value ≠ 0) : doubleChars x = doubleChars y := by
  have parts : Binary64.ofFloat x = Binary64.ofFloat y :=
    (Binary64.canonical_ofBits _).eq_of_value_eq (Binary64.canonical_ofBits _) same some
  rw [doubleChars, doubleChars, parts]

/-- A text starts with a sign or with a digit. -/
def StartsNumber (cs : List Char) : Prop :=
  ∃ first rest, cs = first :: rest ∧ (first = '-' ∨ first.isDigit = true)

theorem startsNumber_doubleChars (x : Float) : StartsNumber (doubleChars x) := by
  obtain ⟨⟨first, rest, text, isDigit⟩, -⟩ := unsignedChars_cases x
  rw [doubleChars_eq]
  split
  · exact ⟨'-', _, rfl, .inl rfl⟩
  · exact ⟨first, rest, text, .inr isDigit⟩

/-! ## Whole numbers -/

theorem startsNumber_integerChars (i : Int) : StartsNumber (integerChars i) := by
  cases i with
  | ofNat n =>
      obtain ⟨first, rest, text, isDigit⟩ := exists_first_toDigits n
      exact ⟨first, rest, text, .inr isDigit⟩
  | negSucc n => exact ⟨'-', _, rfl, .inl rfl⟩

theorem unsignedValue_of_digits {ds : List Char} (digits : AreDigits ds) :
    unsignedValue ds = digitsValue ds := by
  rw [unsignedValue, cutChars_of_not_mem (digits.not_mem rfl)]
  exact pointValue_of_digits digits

theorem textValue_integerChars (i : Int) : textValue (integerChars i) = i := by
  have natural (n : Nat) : unsignedValue (Nat.toDigits 10 n) = n := by
    rw [unsignedValue_of_digits (areDigits_toDigits n), digitsValue_toDigits]
  cases i with
  | ofNat n =>
      obtain ⟨first, rest, text, isDigit⟩ := exists_first_toDigits n
      change textValue (Nat.toDigits 10 n) = _
      rw [text, textValue_of_digit isDigit, ← text, natural]
      rfl
  | negSucc n =>
      change -unsignedValue (Nat.toDigits 10 (n + 1)) = _
      rw [natural, Int.negSucc_eq]
      push_cast
      rfl

theorem integer_injective : Function.Injective integer := by
  intro i j same
  have texts := congrArg textValue (String.ofList_injective same)
  rw [textValue_integerChars, textValue_integerChars] at texts
  exact_mod_cast texts

/-- Only the text of a double has a point or an exponent. -/
theorem doubleChars_ne_integerChars (x : Float) (i : Int) : doubleChars x ≠ integerChars i := by
  intro same
  obtain ⟨-, mark, -⟩ := unsignedChars_cases x
  have inText {c : Char} (member : c ∈ unsignedChars x) : c ∈ integerChars i := by
    rw [← same, doubleChars_eq]
    exact List.mem_append_right _ member
  have noMark {c : Char} (other : c.isDigit = false) (noSign : c ≠ '-') : c ∉ integerChars i := by
    cases i with
    | ofNat n => exact (areDigits_toDigits n).not_mem other
    | negSucc n =>
        rw [integerChars, List.mem_cons, not_or]
        exact ⟨noSign, (areDigits_toDigits _).not_mem other⟩
  rcases mark with point | power
  · exact noMark rfl (by decide) (inText point)
  · exact noMark rfl (by decide) (inText power)

end RequestQuery.Decimal
