/-
# Sort order

A direction is read generously, ignoring the case of ASCII letters and blanks around it, and
written as a keyword.
-/
import RequestQuery.Text.Blank
import RequestQuery.Text.Case

namespace RequestQuery

set_option autoImplicit false

inductive SortOrder where
  | ascending
  | descending
  deriving DecidableEq, Repr, Inhabited

namespace SortOrder

def keyword : SortOrder → String
  | .ascending => "ASC"
  | .descending => "DESC"

/-- The order of exactly this keyword. -/
def ofKeyword? (s : String) : Option SortOrder :=
  if s = "ASC" then some .ascending
  else if s = "DESC" then some .descending
  else none

/-- The order that a direction text asks for. -/
def parse? (s : String) : Option SortOrder :=
  let s := Text.trim s
  if Text.sameLetters s "asc" then some .ascending
  else if Text.sameLetters s "desc" then some .descending
  else none

end SortOrder

/-- A column and the order of its values. -/
structure OrderKey where
  column : String
  order : SortOrder
  deriving DecidableEq, Repr, Inhabited

end RequestQuery
