/-
# Logging variables

Three environment variables say what is logged: whether debugging is on, from which level on, and in
which format.  A word that is not known counts as not given.  Letters may have any case; since the
words are ASCII, and no other letter has one of theirs as its lower case, looking at ASCII letters
is enough.
-/
import RequestQuery.Settings.Expansion
import RequestQuery.Text.Blank
import RequestQuery.Text.Case

namespace RequestQuery.Settings

set_option autoImplicit false

/-- The word of a list that a text is, in any letter case. -/
def wordAmong? (words : List String) (s : String) : Option String :=
  words.find? fun word => Text.sameLetters s word

def isDebugging (environment : Environment) : Bool :=
  ((environment "QUARRY_DEBUG").bind (wordAmong? ["true", "1", "yes"])).isSome

def logLevel (environment : Environment) : String :=
  let level := (environment "QUARRY_LOG_LEVEL").bind fun s =>
    wordAmong? ["trace", "debug", "info", "warn", "error"] (Text.trim s)
  level.getD (if isDebugging environment then "debug" else "warn")

def logFormat (environment : Environment) : String :=
  ((environment "QUARRY_LOG_FORMAT").bind (wordAmong? ["pretty", "compact"])).getD "json"

end RequestQuery.Settings
