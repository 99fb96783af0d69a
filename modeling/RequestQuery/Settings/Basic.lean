/-
# Settings

What a deployment configures: the address of its database, limits on requests, and what is written to
the log.  Named environments may override any of it; what an environment does not mention stays as it
is.
-/
import RequestQuery.Limits
import RequestQuery.Ordered

namespace RequestQuery

set_option autoImplicit false

namespace Settings

structure Database where
  url : Option String := none
  deriving DecidableEq, Repr, Inhabited

structure Debug where
  logQueries : Bool := false
  /-- From how many milliseconds on a query counts as slow. -/
  slowQueryThreshold : UInt64 := 1000
  deriving DecidableEq, Repr, Inhabited

structure DebugOverride where
  logQueries : Option Bool := none
  slowQueryThreshold : Option UInt64 := none
  deriving DecidableEq, Repr, Inhabited

/-- What an environment says differently. -/
structure Override where
  database : Option Database := none
  limits : Option Limits := none
  debug : Option DebugOverride := none
  deriving DecidableEq, Repr, Inhabited

end Settings

structure Settings where
  database : Settings.Database := {}
  limits : Limits := {}
  debug : Settings.Debug := {}
  environments : Ordered Settings.Override := []
  deriving Inhabited

namespace Settings

/-- The file that settings are usually kept in. -/
def usualFile : String := "quarry.toml"

/-- The settings of one environment, which is used up by this. -/
def withEnvironment (settings : Settings) (name : String) : Settings :=
  match settings.environments.get? name with
  | none => settings
  | some override =>
      let url := (override.database.bind (·.url)).or settings.database.url
      let relationLimit :=
        (override.limits.bind (·.relationLimit)).or settings.limits.relationLimit
      let eagerLoads := (override.limits.bind (·.eagerLoads)).or settings.limits.eagerLoads
      let logQueries := (override.debug.bind (·.logQueries)).getD settings.debug.logQueries
      let slowQueryThreshold :=
        (override.debug.bind (·.slowQueryThreshold)).getD settings.debug.slowQueryThreshold
      { database := { url }
        limits := { relationLimit, eagerLoads }
        debug := { logQueries, slowQueryThreshold }
        environments := settings.environments.remove name }

def environmentsByName (settings : Settings) : Ordered Override :=
  settings.environments.mergeSort fun e f => e.1 ≤ f.1

end Settings

end RequestQuery
