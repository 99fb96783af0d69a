/-
# Values in a store

A store holds integers, doubles, texts and byte strings.  A parameter is bound as one of them: a
boolean as a number, a document as its JSON text.  Read back, a text that looks like a JSON array or
object is decoded, so that a document comes back as a document; a text that does not decode stays a
text.  Texts that are not valid UTF-8 get a replacement character for each fault, and byte strings
that are no text become arrays of numbers.
-/
import RequestQuery.Json.Reader
import RequestQuery.Parameter
import RequestQuery.Text.Utf8

namespace RequestQuery.Store

set_option autoImplicit false

/-- A value as it is handed to a store. -/
inductive Binding where
  | null
  | integer (i : Int64)
  | real (x : Float)
  | text (s : String)

/-- A value as a store holds it. -/
inductive Cell where
  | null
  | integer (i : Int64)
  | real (x : Float)
  | text (bytes : List UInt8)
  | blob (bytes : List UInt8)
  deriving Inhabited

def Binding.ofParameter : Parameter → Binding
  | .null => .null
  | .bool b => .integer (if b then 1 else 0)
  | .int i => .integer i
  | .double x => .real x
  | .text s => .text s
  | .document value => .text value.text

namespace Cell

def ofBinding : Binding → Cell
  | .null => .null
  | .integer i => .integer i
  | .real x => .real x
  | .text s => .text (Text.Utf8.encode s)

def ofJson (value : Json.Value) : Cell :=
  ofBinding (.ofParameter (.ofJson value))

/-- Does a text start like a JSON array or object? -/
def looksLikeDocument (s : String) : Bool :=
  match s.toList with
  | '{' :: _ | '[' :: _ => true
  | _ => false

def ofText (s : String) : Json.Value :=
  if looksLikeDocument s then (Json.Value.ofText? s).getD (.string s) else .string s

def toJson : Cell → Json.Value
  | .null => .null
  | .integer i => .ofInt64 i
  | .real x => .ofFloat x
  | .text bytes => ofText (Text.Utf8.decodeLossy bytes)
  | .blob bytes =>
      match Text.Utf8.decode? bytes with
      | some s => .string s
      | none => .array (bytes.map fun b => .ofUInt64 b.toUInt64)

end Cell

/-- Cells collected under the names of their columns. -/
def collect (columns : List String) (cells : List Cell) : Json.Members :=
  Ordered.ofList (columns.zip (cells.map Cell.toJson))

end RequestQuery.Store
