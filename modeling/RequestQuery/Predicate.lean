/-
# Predicates

A predicate speaks about bare columns; which table they belong to is decided where it is rendered.
`none` is the predicate that always holds.  The functions `and`, `andThen` and `not` keep it out of
compound predicates: a conjunction they build has at least two members, and none of them is `none`.
-/
import RequestQuery.Parameter

namespace RequestQuery

set_option autoImplicit false

inductive Predicate where
  /-- Always true. -/
  | none
  | equals (column : String) (value : Parameter)
  | less (column : String) (value : Parameter)
  | greater (column : String) (value : Parameter)
  | isNull (column : String)
  | all (members : List Predicate)
  | negation (inner : Predicate)
  deriving Inhabited

namespace Predicate

def isNone : Predicate → Bool
  | .none => true
  | _ => false

/-- The conjunction of the members that say something. -/
def and (members : List Predicate) : Predicate :=
  match members.filter fun p => !p.isNone with
  | [] => .none
  | [p] => p
  | ps => .all ps

def not (p : Predicate) : Predicate :=
  if p.isNone then .none else .negation p

/-- Both predicates; a conjunction on the left takes the other one in as its last member. -/
def andThen : Predicate → Predicate → Predicate
  | .none, q => q
  | p, .none => p
  | .all members, q => .all (members ++ [q])
  | p, q => .all [p, q]

/-- Equality with a value; equality with null asks for null. -/
def equality (column : String) : Parameter → Predicate
  | .null => .isNull column
  | value => .equals column value

/-- The predicates that must all hold for this one to hold, read off its top. -/
def conjuncts : Predicate → List Predicate
  | .none => []
  | .all members => members
  | p => [p]

end Predicate

end RequestQuery
