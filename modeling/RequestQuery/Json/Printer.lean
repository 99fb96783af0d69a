/-
# The text of a JSON value

The text is compact: no blanks, members in their order.  Inside strings the quote, the backslash
and the control characters below U+0020 are escaped; all other characters, U+007F and those outside
ASCII included, stand for themselves.
-/
import RequestQuery.Json.Value

namespace RequestQuery.Json

set_option autoImplicit false

/-- A control character as a four-digit escape. -/
def unicodeEscape (n : Nat) : List Char :=
  ['\\', 'u', '0', '0', Nat.digitChar (n / 16), Nat.digitChar (n % 16)]

def escapedChar (c : Char) : List Char :=
  if c = '"' then ['\\', '"']
  else if c = '\\' then ['\\', '\\']
  else if c.toNat < 0x20 then
    match c.toNat with
    | 0x8 => ['\\', 'b']
    | 0x9 => ['\\', 't']
    | 0xA => ['\\', 'n']
    | 0xC => ['\\', 'f']
    | 0xD => ['\\', 'r']
    | n => unicodeEscape n
  else [c]

def stringChars (s : String) : List Char :=
  '"' :: s.toList.flatMap escapedChar ++ ['"']

namespace Value

mutual

def chars : Value → List Char
  | .null => ['n', 'u', 'l', 'l']
  | .bool true => ['t', 'r', 'u', 'e']
  | .bool false => ['f', 'a', 'l', 's', 'e']
  | .number n => n.chars
  | .string s => stringChars s
  | .array items => '[' :: itemChars items ++ [']']
  | .object members => '{' :: memberChars members ++ ['}']

def itemChars : List Value → List Char
  | [] => []
  | [v] => v.chars
  | v :: vs => v.chars ++ ',' :: itemChars vs

def memberChars : List (String × Value) → List Char
  | [] => []
  | [(name, v)] => stringChars name ++ ':' :: v.chars
  | (name, v) :: rest => stringChars name ++ ':' :: v.chars ++ ',' :: memberChars rest

end

/-- The compact text of a value. -/
def text (v : Value) : String :=
  String.ofList v.chars

end Value

end RequestQuery.Json
