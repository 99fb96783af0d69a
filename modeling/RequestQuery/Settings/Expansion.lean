/-
# References to environment variables

A text may refer to a variable as `${NAME}`, where the name is anything without a closing brace.
The references are found in the text as it was written, from left to right.  Then each of them whose
variable is set is replaced by its value wherever it stands in the text as it is by then, which
includes the values that were put in before.  A reference to a variable that is not set stays.
-/
namespace RequestQuery.Settings

set_option autoImplicit false

/-- The variables that are set. -/
abbrev Environment := String → Option String

/-- The name of the reference at the front of a text. -/
def referenceAt? : List Char → Option (List Char)
  | '$' :: '{' :: rest =>
      let name := rest.takeWhile (· ≠ '}')
      if name.isEmpty ∨ (rest.dropWhile (· ≠ '}')).isEmpty then none else some name
  | _ => none

/-- A reference as it is written. -/
def reference (name : List Char) : List Char :=
  '$' :: '{' :: name ++ ['}']

/-- The names of the references in a text after its first `skip` characters, which belong to a
reference before them. -/
def referencesFrom (skip : Nat) : List Char → List (List Char)
  | [] => []
  | c :: cs =>
      match skip with
      | skip + 1 => referencesFrom skip cs
      | 0 =>
          match referenceAt? (c :: cs) with
          | some name => name :: referencesFrom (reference name).length.pred cs
          | none => referencesFrom 0 cs

def references (cs : List Char) : List (List Char) :=
  referencesFrom 0 cs

/-- Replace a text that is not empty wherever it occurs after the first `skip` characters, which
belong to an occurrence before them. -/
def replaceFrom (old new : List Char) (skip : Nat) : List Char → List Char
  | [] => []
  | c :: cs =>
      match skip with
      | skip + 1 => replaceFrom old new skip cs
      | 0 =>
          if old.isPrefixOf (c :: cs) then new ++ replaceFrom old new old.length.pred cs
          else c :: replaceFrom old new 0 cs

/-- Replace one reference wherever it stands, if its variable is set. -/
def expandReference (environment : Environment) (cs name : List Char) : List Char :=
  match environment (String.ofList name) with
  | some value => replaceFrom (reference name) value.toList 0 cs
  | none => cs

/-- A text with its references replaced. -/
def expand (environment : Environment) (text : String) : String :=
  let cs := text.toList
  String.ofList ((references cs).foldl (expandReference environment) cs)

end RequestQuery.Settings
