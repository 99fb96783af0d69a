/-
# Quoted names

Names are always written in double quotes, and a quote inside a name is written twice.  A name with
dots is a path: each of its segments is quoted alone, and the dots stand between them.
-/
import RequestQuery.Text.Blank

namespace RequestQuery.Sql

set_option autoImplicit false

/-- The characters of a name with every quote doubled. -/
def doubleQuotes : List Char → List Char
  | [] => []
  | c :: cs => if c = '"' then '"' :: '"' :: doubleQuotes cs else c :: doubleQuotes cs

/-- One quoted segment. -/
def segmentChars (cs : List Char) : List Char :=
  '"' :: doubleQuotes cs ++ ['"']

/-- A name as the path of its segments. -/
def pathSegments (name : String) : List String :=
  Text.splitOn '.' name

theorem pathSegments_ne_nil (name : String) : pathSegments name ≠ [] :=
  Text.splitOn_ne_nil '.' name

/-- With dots between them, the segments are the name. -/
theorem intercalate_pathSegments (name : String) :
    String.intercalate "." (pathSegments name) = name :=
  Text.intercalate_splitOn '.' name

theorem pathSegments_of_not_mem {name : String} (noDot : '.' ∉ name.toList) :
    pathSegments name = [name] := by
  have whole : Text.splitChars '.' name.toList = [name.toList] := by
    generalize name.toList = cs at noDot
    induction cs with
    | nil => rfl
    | cons c cs ih =>
        rw [List.mem_cons, not_or] at noDot
        rw [Text.splitChars, if_neg (Ne.symm noDot.1), ih noDot.2]
  rw [pathSegments, Text.splitOn, whole, List.map_singleton, String.ofList_toList]

/-- A name has one segment exactly if it has no dots. -/
theorem pathSegments_eq_singleton_iff {name segment : String} :
    pathSegments name = [segment] ↔ '.' ∉ name.toList ∧ segment = name := by
  constructor
  · intro single
    have whole := intercalate_pathSegments name
    rw [single, String.intercalate_singleton] at whole
    subst whole
    have only : segment ∈ pathSegments segment := single ▸ List.mem_singleton_self segment
    exact ⟨Text.not_mem_of_mem_splitOn only, rfl⟩
  · rintro ⟨noDot, rfl⟩
    exact pathSegments_of_not_mem noDot

/-- The quoted form of a name. -/
def quoteName (name : String) : String :=
  String.ofList
    (List.intercalate ['.'] ((pathSegments name).map fun s => segmentChars s.toList))

end RequestQuery.Sql
