/-
# Limits

What a deployment allows a request to ask for.  A limit that is not set allows everything.
-/
namespace RequestQuery

set_option autoImplicit false

structure Limits where
  /-- The greatest limit that a load directive may have. -/
  relationLimit : Option UInt64 := none
  /-- The greatest number of load directives, the nested ones included. -/
  eagerLoads : Option UInt64 := none
  deriving DecidableEq, Repr, Inhabited

end RequestQuery
