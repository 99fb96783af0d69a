/-
# Connecting

The database of a deployment is the one whose address its settings give.
-/
import RequestQuery.Settings.Basic
import RequestQuery.Store.Pool

namespace RequestQuery.Store

set_option autoImplicit false

/-- A pool for the database of some settings. -/
def connect (settings : Settings) (canOpen : String → Bool) (now : Nat) : Outcome Pool :=
  match settings.database.url with
  | none =>
      .error
        ((Failure.of (.configuration "database.url is not set")).withHelp
          ("Set [database] url in " ++ Settings.usualFile))
  | some address =>
      let pool := do
        let database ← Database.ofAddress address
        Pool.create {} database canOpen now
      pool.mapError Fault.toFailure

end RequestQuery.Store
