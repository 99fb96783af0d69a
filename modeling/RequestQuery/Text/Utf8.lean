/-
# UTF-8, whole and damaged

Decoding runs one machine over the octets.  Between characters it is at `start`; inside one it
knows how many octets are still owed, which octets may come next and the bits collected so far.
An octet that may not come ends the character: what was read of it is one damaged piece, and the
octet itself is read again as a first octet.  Hence every maximal piece that starts no character
counts as one piece.

* `pieces` gives every character and every damaged piece in order;
* `decode?` succeeds when there is no damaged piece;
* `decodeLossy` puts U+FFFD in the place of each.
-/
namespace RequestQuery.Text.Utf8

set_option autoImplicit false

/-! ## The machine -/

inductive State where
  /-- Between characters. -/
  | start
  /-- `owed + 1` octets are missing, the next of them between `low` and `high`. -/
  | inside (owed low high bits : Nat)
  deriving DecidableEq, Repr

/-- What one octet leads to: the next state and what the octet completed. -/
structure Step where
  state : State
  /-- Characters (`some`) and damaged pieces (`none`) that are now complete. -/
  done : List (Option Char)

/-- The step from between characters. -/
def first (b : Nat) : Step :=
  if b ≤ 0x7F then ⟨.start, [some (Char.ofNat b)]⟩
  else if 0xC2 ≤ b ∧ b ≤ 0xDF then ⟨.inside 0 0x80 0xBF (b - 0xC0), []⟩
  else if b = 0xE0 then ⟨.inside 1 0xA0 0xBF 0, []⟩
  else if b = 0xED then ⟨.inside 1 0x80 0x9F 0xD, []⟩
  else if 0xE1 ≤ b ∧ b ≤ 0xEF then ⟨.inside 1 0x80 0xBF (b - 0xE0), []⟩
  else if b = 0xF0 then ⟨.inside 2 0x90 0xBF 0, []⟩
  else if b = 0xF4 then ⟨.inside 2 0x80 0x8F 4, []⟩
  else if 0xF1 ≤ b ∧ b ≤ 0xF3 then ⟨.inside 2 0x80 0xBF (b - 0xF0), []⟩
  else ⟨.start, [none]⟩

def step : State → Nat → Step
  | .start, b => first b
  | .inside owed low high bits, b =>
      if low ≤ b ∧ b ≤ high then
        let bits' := bits * 64 + (b - 0x80)
        match owed with
        | 0 => ⟨.start, [some (Char.ofNat bits')]⟩
        | owed' + 1 => ⟨.inside owed' 0x80 0xBF bits', []⟩
      else
        let again := first b
        ⟨again.state, none :: again.done⟩

/-- What the octets contain when they are read from a given state. -/
def run : State → List UInt8 → List (Option Char)
  | .start, [] => []
  | .inside .., [] => [none]
  | state, b :: rest =>
      let next := step state b.toNat
      next.done ++ run next.state rest

/-! ## Decoding -/

def pieces (octets : List UInt8) : List (Option Char) :=
  run .start octets

/-- The text of octets that are UTF-8 throughout. -/
def decode? (octets : List UInt8) : Option String :=
  ((pieces octets).mapM id).map String.ofList

/-- The text in which U+FFFD stands for each damaged piece. -/
def decodeLossy (octets : List UInt8) : String :=
  String.ofList ((pieces octets).map (·.getD (Char.ofNat 0xFFFD)))

/-- The octets of a text. -/
def encode (s : String) : List UInt8 :=
  s.toList.flatMap String.utf8EncodeChar

example : decodeLossy [0xE4, 0xB8, 0xAD, 0xFF, 0x41] = "中\uFFFDA" := by decide +kernel
example : decodeLossy [0xED, 0xA0, 0x80] = "\uFFFD\uFFFD\uFFFD" := by decide +kernel
example : decode? [0xC3] = none := by decide +kernel
example : decode? (encode "aé中😀") = some "aé中😀" := by decide +kernel

end RequestQuery.Text.Utf8
