/-
# Blank characters, trimming and splitting

A character is blank when it has the Unicode property White_Space.  `trim` drops the blank
characters at both ends of a text and nothing between them.  `splitOn` cuts at every occurrence of
one character, so a text with `n` of them has `n + 1` segments, empty ones included; no segment
holds that character, and joined again they are the text (`intercalate_splitOn`).
-/
namespace RequestQuery.Text

set_option autoImplicit false

/-! ## Blank characters -/

/-- The code points with the property White_Space, as closed ranges. -/
def blankRanges : List (Nat × Nat) :=
  [(0x9, 0xD), (0x20, 0x20), (0x85, 0x85), (0xA0, 0xA0), (0x1680, 0x1680), (0x2000, 0x200A),
   (0x2028, 0x2029), (0x202F, 0x202F), (0x205F, 0x205F), (0x3000, 0x3000)]

/-- Does a code point lie in one of the ranges? -/
def inRanges (ranges : List (Nat × Nat)) (n : Nat) : Bool :=
  ranges.any fun range => range.1 ≤ n && n ≤ range.2

def isBlank (c : Char) : Bool :=
  inRanges blankRanges c.toNat

/-! ## Trimming -/

/-- The characters from the first to the last one that is not blank. -/
def trimChars (cs : List Char) : List Char :=
  ((cs.dropWhile isBlank).reverse.dropWhile isBlank).reverse

def trim (s : String) : String :=
  String.ofList (trimChars s.toList)

/-! ## Splitting -/

/-- The segments between the occurrences of `sep`. -/
def splitChars (sep : Char) : List Char → List (List Char)
  | [] => [[]]
  | c :: cs =>
      if c = sep then [] :: splitChars sep cs
      else
        match splitChars sep cs with
        | [] => [[c]]
        | segment :: rest => (c :: segment) :: rest

def splitOn (sep : Char) (s : String) : List String :=
  (splitChars sep s.toList).map String.ofList

/-- The parts before and after the first occurrence of `sep`, if there is one. -/
def cutChars (sep : Char) : List Char → Option (List Char × List Char)
  | [] => none
  | c :: cs =>
      if c = sep then some ([], cs)
      else (cutChars sep cs).map fun parts => (c :: parts.1, parts.2)

/-- The rest of a text that starts with `start`. -/
def afterPrefix? : List Char → List Char → Option (List Char)
  | [], cs => some cs
  | _ :: _, [] => none
  | p :: ps, c :: cs => if p = c then afterPrefix? ps cs else none

theorem splitChars_ne_nil (sep : Char) (cs : List Char) : splitChars sep cs ≠ [] := by
  cases cs with
  | nil => simp [splitChars]
  | cons c cs =>
      simp only [splitChars]
      split
      · simp
      · split <;> simp

/-- Joined again, the segments are the text that was split. -/
theorem intercalate_splitChars (sep : Char) (cs : List Char) :
    List.intercalate [sep] (splitChars sep cs) = cs := by
  induction cs with
  | nil => rfl
  | cons c cs ih =>
      rcases h : splitChars sep cs with _ | ⟨segment, rest⟩
      · exact absurd h (splitChars_ne_nil sep cs)
      · rw [h] at ih
        by_cases g : c = sep
        · subst g
          simp only [splitChars, if_pos, h]
          rw [← ih]
          rfl
        · simp only [splitChars, if_neg g, h]
          rw [← ih]
          cases rest <;> rfl

/-- No segment holds the character that the text was cut at. -/
theorem not_mem_of_mem_splitChars {sep : Char} {cs segment : List Char}
    (h : segment ∈ splitChars sep cs) : sep ∉ segment := by
  induction cs generalizing segment with
  | nil =>
      rw [List.mem_singleton.1 h]
      exact List.not_mem_nil
  | cons c cs ih =>
      by_cases g : c = sep
      · simp only [splitChars, if_pos g] at h
        rcases List.mem_cons.1 h with rfl | h
        · exact List.not_mem_nil
        · exact ih h
      · simp only [splitChars, if_neg g] at h
        rcases hs : splitChars sep cs with _ | ⟨first, rest⟩
        · exact absurd hs (splitChars_ne_nil sep cs)
        · rw [hs] at h ih
          rcases List.mem_cons.1 h with rfl | h
          · intro hm
            rcases List.mem_cons.1 hm with e | hm
            · exact g e.symm
            · exact ih (List.mem_cons_self ..) hm
          · exact ih (List.mem_cons_of_mem _ h)

theorem map_toList_splitOn (sep : Char) (s : String) :
    (splitOn sep s).map String.toList = splitChars sep s.toList := by
  rw [splitOn, List.map_map]
  exact List.map_id'' (fun _ => String.toList_ofList) _

theorem splitOn_ne_nil (sep : Char) (s : String) : splitOn sep s ≠ [] :=
  fun none => splitChars_ne_nil sep s.toList (List.map_eq_nil_iff.1 none)

theorem not_mem_of_mem_splitOn {sep : Char} {s segment : String} (h : segment ∈ splitOn sep s) :
    sep ∉ segment.toList :=
  not_mem_of_mem_splitChars (map_toList_splitOn sep s ▸ List.mem_map_of_mem h)

theorem intercalate_splitOn (sep : Char) (s : String) :
    String.intercalate (String.singleton sep) (splitOn sep s) = s := by
  rw [← String.toList_inj, String.toList_intercalate, map_toList_splitOn, String.toList_singleton]
  exact intercalate_splitChars sep s.toList

end RequestQuery.Text
