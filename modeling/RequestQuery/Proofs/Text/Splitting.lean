/-
# Texts that are cut at a character

The segments between the occurrences of a character are the one list of texts that do not hold the
character and, with the character between them, are the whole (`splitOn_eq_iff`).  So whatever cuts
a text there cuts it in this way.
-/
import RequestQuery.Text.Blank

namespace RequestQuery.Text

set_option autoImplicit false

variable {sep : Char} {s : String} {pieces : List String}

theorem splitChars_eq_splitOn (sep : Char) (cs : List Char) :
    splitChars sep cs = cs.splitOn sep := by
  rw [← List.splitOn_intercalate sep (fun _ => not_mem_of_mem_splitChars)
    (splitChars_ne_nil sep cs), intercalate_splitChars]

/-- Pieces without the character are found again between its occurrences. -/
theorem splitOn_intercalate (nonempty : pieces ≠ []) (apart : ∀ piece ∈ pieces, sep ∉ piece.toList) :
    splitOn sep (String.intercalate (String.singleton sep) pieces) = pieces := by
  have whole : (String.intercalate (String.singleton sep) pieces).toList =
      List.intercalate [sep] (pieces.map String.toList) := by
    rw [String.toList_intercalate, String.toList_singleton]
  rw [splitOn, whole, splitChars_eq_splitOn,
    List.splitOn_intercalate sep (List.forall_mem_map.2 apart) (mt List.map_eq_nil_iff.1 nonempty),
    List.map_map]
  exact List.map_id'' (fun _ => String.ofList_toList) pieces

/-- **A text is cut at a character in one way.** -/
theorem splitOn_eq_iff :
    splitOn sep s = pieces ↔ pieces ≠ [] ∧ (∀ piece ∈ pieces, sep ∉ piece.toList) ∧
      String.intercalate (String.singleton sep) pieces = s := by
  constructor
  · rintro rfl
    exact ⟨splitOn_ne_nil sep s, fun _ => not_mem_of_mem_splitOn, intercalate_splitOn sep s⟩
  · rintro ⟨nonempty, apart, rfl⟩
    exact splitOn_intercalate nonempty apart

end RequestQuery.Text
