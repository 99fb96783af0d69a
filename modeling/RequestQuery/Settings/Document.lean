/-
# Settings from a document

Settings are written as a TOML document with references to environment variables.  Every entry may
be missing, and none may be unknown.
-/
import RequestQuery.Failure
import RequestQuery.Settings.Basic
import RequestQuery.Settings.Expansion
import RequestQuery.Toml.Decode
import RequestQuery.Toml.Reader
import RequestQuery.Toml.Report

namespace RequestQuery.Settings

set_option autoImplicit false

/-! ## Shapes -/

def databaseShape : Toml.Shape Database :=
  { name := "DatabaseConfig"
    fields :=
      [{ name := "url"
         decode := fun _ node => do
           let url ← Toml.string node
           pure { url := some url }
         hasDefault := false }] }

def limitsShape : Toml.Shape Limits :=
  { name := "QueryLimits"
    fields :=
      [{ name := "max_relation_limit"
         decode := fun limits node => do
           let limit ← Toml.word "u64" node
           pure { limits with relationLimit := some limit }
         hasDefault := false },
       { name := "max_eager_loads"
         decode := fun limits node => do
           let limit ← Toml.word "usize" node
           pure { limits with eagerLoads := some limit }
         hasDefault := false }] }

def debugShape : Toml.Shape Debug :=
  { name := "DebugConfig"
    fields :=
      [{ name := "log_queries"
         decode := fun debug node => do
           let logQueries ← Toml.bool node
           pure { debug with logQueries }
         hasDefault := true },
       { name := "slow_query_threshold"
         decode := fun debug node => do
           let slowQueryThreshold ← Toml.word "u64" node
           pure { debug with slowQueryThreshold }
         hasDefault := true }] }

def debugOverrideShape : Toml.Shape DebugOverride :=
  { name := "DebugOverride"
    fields :=
      [{ name := "log_queries"
         decode := fun debug node => do
           let logQueries ← Toml.bool node
           pure { debug with logQueries := some logQueries }
         hasDefault := false },
       { name := "slow_query_threshold"
         decode := fun debug node => do
           let threshold ← Toml.word "u64" node
           pure { debug with slowQueryThreshold := some threshold }
         hasDefault := false }] }

def overrideShape : Toml.Shape Override :=
  { name := "EnvironmentOverride"
    fields :=
      [{ name := "database"
         decode := fun override node => do
           let database ← databaseShape.decode {} node
           pure { override with database := some database }
         hasDefault := false },
       { name := "query"
         decode := fun override node => do
           let limits ← limitsShape.decode {} node
           pure { override with limits := some limits }
         hasDefault := false },
       { name := "debug"
         decode := fun override node => do
           let debug ← debugOverrideShape.decode {} node
           pure { override with debug := some debug }
         hasDefault := false }] }

def shape : Toml.Shape Settings :=
  { name := "QuarryConfig"
    fields :=
      [{ name := "database"
         decode := fun settings node => do
           let database ← databaseShape.decode {} node
           pure { settings with database }
         hasDefault := true },
       { name := "query"
         decode := fun settings node => do
           let limits ← limitsShape.decode {} node
           pure { settings with limits }
         hasDefault := true },
       { name := "debug"
         decode := fun settings node => do
           let debug ← debugShape.decode {} node
           pure { settings with debug }
         hasDefault := true },
       { name := "environments"
         decode := fun settings node => do
           let environments ← Toml.mapping (overrideShape.decode {}) node
           pure { settings with environments }
         hasDefault := true }] }

/-! ## Reading settings -/

inductive Fault where
  /-- There is no file of that name. -/
  | noFile (path : String)
  | malformed (source : String) (error : Toml.FormError)
  | misfit (source : String) (misfit : Toml.Misfit)
  deriving DecidableEq, Repr

namespace Fault

def text : Fault → String
  | .noFile path =>
      "failed to read config file '" ++ path ++ "': No such file or directory (os error 2)"
  | .malformed source error =>
      "invalid configuration: " ++ Toml.reportAt source error.span? error.message
  | .misfit source found =>
      "invalid configuration: " ++ Toml.reportAt source found.span found.mismatch.message

def toFailure (fault : Fault) : Failure :=
  (Failure.of (.configuration fault.text)).withSource fault.text

end Fault

/-- The settings of a document. -/
def ofDocument (environment : Environment) (text : String) : Except Fault Settings := do
  let source := expand environment text
  let entries ← (Toml.document source).mapError (Fault.malformed source)
  (shape.decode {} (.at none (.table .header entries))).mapError (Fault.misfit source)

end RequestQuery.Settings
