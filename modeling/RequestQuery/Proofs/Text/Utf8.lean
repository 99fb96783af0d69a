/-
# Text that is encoded and decoded again

A character beyond ASCII is a leading octet and one to three trailing ones, which carry six bits
each.  The machine collects the bits of the trailing octets (`run_trailing`).  Every leading octet
promises as many of them as its character has and admits the first of them (`first_of_two`,
`first_of_three`, `first_of_four`), so after the octets of a character the machine has handed out
that character and is between characters again (`run_encodeChar`).  What is encoded therefore has no
damaged piece, and decoding gives it back (`decodeLossy_encode`).
-/
import Mathlib.Tactic.Ring
import RequestQuery.Text.Utf8

namespace RequestQuery.Text.Utf8

set_option autoImplicit false

/-! ## Trailing octets -/

/-- The last `6 · count` bits of a number, six in each octet. -/
def trailing (v : Nat) : Nat → List UInt8
  | 0 => []
  | count + 1 => UInt8.ofNat (v / 64 ^ count % 64 + 0x80) :: trailing v count

theorem toNat_ofNat {n : Nat} (octet : n < 256) : (UInt8.ofNat n).toNat = n := by
  rw [UInt8.toNat_ofNat', Nat.mod_eq_of_lt octet]

/-- Six bits more of a number. -/
theorem mod_pow_succ (v count : Nat) :
    v % 64 ^ (count + 1) = v / 64 ^ count % 64 * 64 ^ count + v % 64 ^ count := by
  rw [pow_succ, Nat.mod_mul]
  ring

/-- The trailing octets of a number add their bits to those collected so far; only the first of them
may be restricted further. -/
theorem run_trailing (v : Nat) {owed low high : Nat} (bits : Nat) (rest : List UInt8)
    (least : low ≤ v / 64 ^ owed % 64 + 0x80) (greatest : v / 64 ^ owed % 64 + 0x80 ≤ high) :
    run (.inside owed low high bits) (trailing v (owed + 1) ++ rest) =
      some (Char.ofNat (bits * 64 ^ (owed + 1) + v % 64 ^ (owed + 1))) :: run .start rest := by
  have octet : v / 64 ^ owed % 64 + 0x80 < 256 := by omega
  induction owed generalizing low high bits with
  | zero =>
      have done : step (.inside 0 low high bits) (v / 64 ^ 0 % 64 + 0x80) =
          ⟨.start, [some (Char.ofNat (bits * 64 + v % 64))]⟩ := by
        rw [step, if_pos ⟨least, greatest⟩]
        simp
      rw [trailing, List.cons_append, run, toNat_ofNat octet, done]
      simp [trailing]
  | succ owed ih =>
      have next : step (.inside (owed + 1) low high bits) (v / 64 ^ (owed + 1) % 64 + 0x80) =
          ⟨.inside owed 0x80 0xBF (bits * 64 + v / 64 ^ (owed + 1) % 64), []⟩ := by
        rw [step, if_pos ⟨least, greatest⟩, Nat.add_sub_cancel]
      have all : (bits * 64 + v / 64 ^ (owed + 1) % 64) * 64 ^ (owed + 1) + v % 64 ^ (owed + 1) =
          bits * 64 ^ (owed + 2) + v % 64 ^ (owed + 2) := by
        rw [mod_pow_succ v (owed + 1)]
        ring
      rw [trailing, List.cons_append, run, toNat_ofNat octet, next, List.nil_append,
        ih _ (by omega) (by omega) (by omega), all]

/-! ## Leading octets -/

section Leading

variable {v : Nat}

theorem first_of_two (least : 0x80 ≤ v) (greatest : v ≤ 0x7FF) :
    first (v / 64 + 0xC0) = ⟨.inside 0 0x80 0xBF (v / 64), []⟩ := by
  have notOne : ¬ v / 64 + 0xC0 ≤ 0x7F := by omega
  have two : 0xC2 ≤ v / 64 + 0xC0 ∧ v / 64 + 0xC0 ≤ 0xDF := by omega
  rw [first, if_neg notOne, if_pos two, Nat.add_sub_cancel]

/-- Three octets are not spent on what fits two, nor on a surrogate. -/
theorem first_of_three (least : 0x800 ≤ v) (greatest : v ≤ 0xFFFF)
    (noSurrogate : v < 0xD800 ∨ 0xDFFF < v) :
    ∃ low high, first (v / 64 ^ 2 + 0xE0) = ⟨.inside 1 low high (v / 64 ^ 2), []⟩ ∧
      low ≤ v / 64 ^ 1 % 64 + 0x80 ∧ v / 64 ^ 1 % 64 + 0x80 ≤ high := by
  have notOne : ¬ v / 64 ^ 2 + 0xE0 ≤ 0x7F := by omega
  have notTwo : ¬ (0xC2 ≤ v / 64 ^ 2 + 0xE0 ∧ v / 64 ^ 2 + 0xE0 ≤ 0xDF) := by omega
  rw [first, if_neg notOne, if_neg notTwo, Nat.add_sub_cancel]
  by_cases lowest : v / 64 ^ 2 = 0
  · rw [lowest]
    exact ⟨0xA0, 0xBF, rfl, by omega, by omega⟩
  by_cases surrogates : v / 64 ^ 2 = 0xD
  · rw [surrogates]
    exact ⟨0x80, 0x9F, rfl, by omega, by omega⟩
  have notLowest : ¬ v / 64 ^ 2 + 0xE0 = 0xE0 := by omega
  have notSurrogates : ¬ v / 64 ^ 2 + 0xE0 = 0xED := by omega
  have three : 0xE1 ≤ v / 64 ^ 2 + 0xE0 ∧ v / 64 ^ 2 + 0xE0 ≤ 0xEF := by omega
  rw [if_neg notLowest, if_neg notSurrogates, if_pos three]
  exact ⟨0x80, 0xBF, rfl, by omega, by omega⟩

/-- Four octets are not spent on what fits three, nor on what is beyond the last character. -/
theorem first_of_four (least : 0x10000 ≤ v) (greatest : v < 0x110000) :
    ∃ low high, first (v / 64 ^ 3 + 0xF0) = ⟨.inside 2 low high (v / 64 ^ 3), []⟩ ∧
      low ≤ v / 64 ^ 2 % 64 + 0x80 ∧ v / 64 ^ 2 % 64 + 0x80 ≤ high := by
  have notOne : ¬ v / 64 ^ 3 + 0xF0 ≤ 0x7F := by omega
  have notTwo : ¬ (0xC2 ≤ v / 64 ^ 3 + 0xF0 ∧ v / 64 ^ 3 + 0xF0 ≤ 0xDF) := by omega
  have notE0 : ¬ v / 64 ^ 3 + 0xF0 = 0xE0 := by omega
  have notED : ¬ v / 64 ^ 3 + 0xF0 = 0xED := by omega
  have notThree : ¬ (0xE1 ≤ v / 64 ^ 3 + 0xF0 ∧ v / 64 ^ 3 + 0xF0 ≤ 0xEF) := by omega
  rw [first, if_neg notOne, if_neg notTwo, if_neg notE0, if_neg notED, if_neg notThree,
    Nat.add_sub_cancel]
  by_cases lowest : v / 64 ^ 3 = 0
  · rw [lowest]
    exact ⟨0x90, 0xBF, rfl, by omega, by omega⟩
  by_cases highest : v / 64 ^ 3 = 4
  · rw [highest]
    exact ⟨0x80, 0x8F, rfl, by omega, by omega⟩
  have notLowest : ¬ v / 64 ^ 3 + 0xF0 = 0xF0 := by omega
  have notHighest : ¬ v / 64 ^ 3 + 0xF0 = 0xF4 := by omega
  have four : 0xF1 ≤ v / 64 ^ 3 + 0xF0 ∧ v / 64 ^ 3 + 0xF0 ≤ 0xF3 := by omega
  rw [if_neg notLowest, if_neg notHighest, if_pos four]
  exact ⟨0x80, 0xBF, rfl, by omega, by omega⟩

end Leading

/-! ## Characters -/

/-- The octets of a character: one, or a leading octet with the trailing ones it promises. -/
theorem utf8EncodeChar_cases (c : Char) :
    (c.toNat ≤ 0x7F ∧ String.utf8EncodeChar c = [UInt8.ofNat c.toNat]) ∨
    ((0x80 ≤ c.toNat ∧ c.toNat ≤ 0x7FF) ∧
      String.utf8EncodeChar c = UInt8.ofNat (c.toNat / 64 + 0xC0) :: trailing c.toNat 1) ∨
    ((0x800 ≤ c.toNat ∧ c.toNat ≤ 0xFFFF) ∧
      String.utf8EncodeChar c = UInt8.ofNat (c.toNat / 64 ^ 2 + 0xE0) :: trailing c.toNat 2) ∨
    ((0x10000 ≤ c.toNat ∧ c.toNat < 0x110000) ∧
      String.utf8EncodeChar c = UInt8.ofNat (c.toNat / 64 ^ 3 + 0xF0) :: trailing c.toNat 3) := by
  have valid : c.toNat < 0xD800 ∨ 0xDFFF < c.toNat ∧ c.toNat < 0x110000 := c.valid
  unfold String.utf8EncodeChar
  rw [Char.toNat_val]
  generalize c.toNat = v at valid
  simp only [trailing]
  split
  next one => exact .inl ⟨one, rfl⟩
  split
  next two =>
    have lead : v / 64 % 32 = v / 64 := by omega
    exact .inr (.inl ⟨by omega, by simp [lead]⟩)
  split
  next three =>
    have lead : v / 4096 % 16 = v / 4096 := by omega
    exact .inr (.inr (.inl ⟨by omega, by simp [lead]⟩))
  next four =>
    have lead : v / 262144 % 8 = v / 262144 := by omega
    exact .inr (.inr (.inr ⟨by omega, by simp [lead]⟩))

/-- A leading octet and the trailing octets it promises are one character. -/
theorem run_leading {v owed low high : Nat} (rest : List UInt8) {lead : Nat} (octet : lead < 256)
    (opens : first lead = ⟨.inside owed low high (v / 64 ^ (owed + 1)), []⟩)
    (least : low ≤ v / 64 ^ owed % 64 + 0x80) (greatest : v / 64 ^ owed % 64 + 0x80 ≤ high) :
    run .start (UInt8.ofNat lead :: trailing v (owed + 1) ++ rest) =
      some (Char.ofNat v) :: run .start rest := by
  rw [List.cons_append, run, toNat_ofNat octet, step, opens, List.nil_append,
    run_trailing v _ rest least greatest, Nat.div_add_mod']

theorem run_encodeChar (c : Char) (rest : List UInt8) :
    run .start (String.utf8EncodeChar c ++ rest) = some c :: run .start rest := by
  have valid : c.toNat < 0xD800 ∨ 0xDFFF < c.toNat ∧ c.toNat < 0x110000 := c.valid
  have same : Char.ofNat c.toNat = c := Char.ofNat_toNat c
  rcases utf8EncodeChar_cases c with ⟨one, octets⟩ | ⟨⟨least, greatest⟩, octets⟩ |
      ⟨⟨least, greatest⟩, octets⟩ | ⟨⟨least, greatest⟩, octets⟩
  · rw [octets, List.singleton_append, run, toNat_ofNat (by omega), step, first, if_pos one, same]
    rfl
  · rw [octets, run_leading rest (by omega) (first_of_two least greatest) (by omega) (by omega),
      same]
  · obtain ⟨low, high, opens, lower, upper⟩ := first_of_three least greatest (by omega)
    rw [octets, run_leading rest (by omega) opens lower upper, same]
  · obtain ⟨low, high, opens, lower, upper⟩ := first_of_four least greatest
    rw [octets, run_leading rest (by omega) opens lower upper, same]

/-! ## Texts -/

theorem pieces_encode (s : String) : pieces (encode s) = s.toList.map some := by
  rw [pieces, encode]
  induction s.toList with
  | nil => rfl
  | cons c cs ih => rw [List.flatMap_cons, run_encodeChar, ih, List.map_cons]

/-- What is encoded is decoded again, without a replacement. -/
theorem decodeLossy_encode (s : String) : decodeLossy (encode s) = s := by
  rw [decodeLossy, pieces_encode, List.map_map]
  have whole : (s.toList.map ((·.getD (Char.ofNat 0xFFFD)) ∘ some)) = s.toList :=
    List.map_id' s.toList
  rw [whole, String.ofList_toList]

/-- And it is a text throughout. -/
theorem decode?_encode (s : String) : decode? (encode s) = some s := by
  have all : (s.toList.map some).mapM id = some s.toList := by
    induction s.toList with
    | nil => rfl
    | cons c cs ih => simp [ih]
  rw [decode?, pieces_encode, all, Option.map_some, String.ofList_toList]

end RequestQuery.Text.Utf8
