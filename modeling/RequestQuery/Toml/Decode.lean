/-
# Reading values out of a document

A decoder turns a value of a document into a value of another type, or says in what it does not fit
and where.  A record is given as a table, whose entries are decoded in their order and must all be
known, or as an array with the fields in theirs.  A time looks like a table with one entry of a
reserved name.
-/
import RequestQuery.Decimal.Shortest
import RequestQuery.Text.Quoted
import RequestQuery.Toml.Document

namespace RequestQuery.Toml

set_option autoImplicit false

/-! ## Misfits -/

inductive Mismatch where
  | unknownField (name : String) (known : List String)
  | wrongType (found : String) (wanted : String)
  | wrongValue (found : String) (wanted : String)
  | tooShort (length : Nat) (wanted : String)
  deriving DecidableEq, Repr

structure Misfit where
  mismatch : Mismatch
  span : Option Span
  deriving DecidableEq, Repr

abbrev Decoded (α : Type) := Except Misfit α

def ticked (s : String) : String :=
  "`" ++ s ++ "`"

/-- The names that could have stood in the place of another one. -/
def alternatives : List String → String
  | [] => "there are no fields"
  | [a] => "expected " ++ ticked a
  | [a, b] => "expected " ++ ticked a ++ " or " ++ ticked b
  | names => "expected one of " ++ ", ".intercalate (names.map ticked)

def Mismatch.message : Mismatch → String
  | .unknownField name known => "unknown field " ++ ticked name ++ ", " ++ alternatives known
  | .wrongType found wanted => "invalid type: " ++ found ++ ", expected " ++ wanted
  | .wrongValue found wanted => "invalid value: " ++ found ++ ", expected " ++ wanted
  | .tooShort length wanted =>
      "invalid length " ++ Decimal.natural length ++ ", expected " ++ wanted

/-- What a message calls a value. -/
def Value.description : Value → String
  | .string s => "string " ++ Text.quoted s
  | .integer i => "integer " ++ ticked (Decimal.integer i.toInt)
  | .double x => "floating point " ++ ticked (Decimal.plainDouble x)
  | .bool true => "boolean `true`"
  | .bool false => "boolean `false`"
  | .moment _ | .table .. => "map"
  | .array _ | .tables _ => "sequence"

/-- Say where a misfit is, unless that is known already. -/
def locate {α : Type} (span : Option Span) (decoded : Decoded α) : Decoded α :=
  decoded.mapError fun misfit =>
    match misfit.span with
    | some _ => misfit
    | none => { misfit with span }

def wrongType {α : Type} (node : Node) (wanted : String) : Decoded α :=
  .error ⟨.wrongType node.value.description wanted, node.span⟩

/-! ## Scalars -/

def string (node : Node) : Decoded String :=
  match node.value with
  | .string s => .ok s
  | _ => wrongType node "a string"

def bool (node : Node) : Decoded Bool :=
  match node.value with
  | .bool b => .ok b
  | _ => wrongType node "a boolean"

/-- An integer that is not negative; `wanted` is what a message calls it. -/
def word (wanted : String) (node : Node) : Decoded UInt64 :=
  match node.value with
  | .integer i =>
      if 0 ≤ i then .ok i.toUInt64
      else .error ⟨.wrongValue (node.value.description) wanted, node.span⟩
  | _ => wrongType node wanted

/-! ## Records -/

/-- A field of a record and how its value is taken in. -/
structure Field (α : Type) where
  name : String
  decode : α → Node → Decoded α
  /-- It may be missing at the end of an array. -/
  hasDefault : Bool

structure Shape (α : Type) where
  name : String
  fields : List (Field α)

namespace Shape

variable {α : Type}

def names (shape : Shape α) : List String :=
  shape.fields.map (·.name)

/-- What a message calls an array of all fields. -/
def asSequence (shape : Shape α) : String :=
  let count := shape.fields.length
  "struct " ++ shape.name ++ " with " ++ Decimal.natural count ++
    if count = 1 then " element" else " elements"

def decodeEntry (shape : Shape α) (a : α) (entry : Key × Node) : Decoded α :=
  match shape.fields.find? (·.name = entry.1.name) with
  | some field => locate (some entry.1.span) (field.decode a entry.2)
  | none => .error ⟨.unknownField entry.1.name shape.names, some entry.1.span⟩

/-- Take in an array from the field at an index on. -/
def decodeItems (wanted : String) : Nat → List (Field α) → List Node → α → Decoded α
  | _, [], _, a => .ok a
  | index, field :: fields, node :: nodes, a => do
      let a ← field.decode a node
      decodeItems wanted (index + 1) fields nodes a
  | index, field :: fields, [], a =>
      if field.hasDefault then decodeItems wanted (index + 1) fields [] a
      else .error ⟨.tooShort index wanted, none⟩

/-- The name of the entry that a time looks like. -/
def momentEntry : String := "$__toml_private_datetime"

/-- Take in what a node says about a record. -/
def decode (shape : Shape α) (a : α) (node : Node) : Decoded α :=
  locate node.span <|
    match node.value with
    | .table _ entries => entries.foldlM shape.decodeEntry a
    | .moment _ => .error ⟨.unknownField momentEntry shape.names, none⟩
    | .array items | .tables items =>
        decodeItems shape.asSequence 0 shape.fields items a
    | _ => wrongType node ("struct " ++ shape.name)

end Shape

/-- Values of one kind by name. -/
def mapping {α : Type} (decode : Node → Decoded α) (node : Node) : Decoded (List (String × α)) :=
  locate node.span <|
    match node.value with
    | .table _ entries =>
        entries.mapM fun entry => do
          let a ← locate (some entry.1.span) (decode entry.2)
          pure (entry.1.name, a)
    | .moment s => do
        let a ← decode (.at none (.string s))
        pure [(Shape.momentEntry, a)]
    | _ => wrongType node "a map"

end RequestQuery.Toml
