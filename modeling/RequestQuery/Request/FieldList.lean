/-
# Field lists

The fields of a selection and the keys of a grouping are given as one text with commas or as an
array.  A text is cut at its commas, and segments that are blank after trimming are dropped.  Of an
array the strings, numbers and booleans are taken as they are written, everything else is skipped.
A list without fields is the same as none.
-/
import RequestQuery.Json.Printer
import RequestQuery.Text.Blank

namespace RequestQuery.Request

set_option autoImplicit false

/-- Names of fields in order. -/
abbrev FieldList := List String

namespace FieldList

/-- The segments of a text that are not blank. -/
def segments (s : String) : List String :=
  ((Text.splitOn ',' s).map Text.trim).filter (· ≠ "")

/-- The text of an array item that can name a field. -/
def itemText? : Json.Value → Option String
  | .string s => some s
  | .number n => some n.text
  | .bool true => some "true"
  | .bool false => some "false"
  | _ => none

/-- A list with at least one field. -/
def nonEmpty? (fields : List String) : Option FieldList :=
  if fields.isEmpty then none else some fields

def ofJson? : Json.Value → Option FieldList
  | .string s => nonEmpty? (segments s)
  | .array items => nonEmpty? (items.filterMap itemText?)
  | _ => none

/-- The list as an array of strings; null stands for no list. -/
def toJson : Option FieldList → Json.Value
  | some fields => .array (fields.map .string)
  | none => .null

end FieldList

end RequestQuery.Request
