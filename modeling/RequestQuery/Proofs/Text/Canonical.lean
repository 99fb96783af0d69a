/-
# Trimmed texts and upper-case texts

Trimming is done once and for all: a trimmed text has no blank at either end, and trimming leaves
such a text as it is (`trim_trim`).  The same holds of the upper case, although one character may
become three of them (`upper_upper`): no run and no expansion of the tables leads to a character
that a run or an expansion starts from.  Nor does it lead to a blank one, so a trimmed text is still
trimmed when it is written in upper case (`trim_upper_trim`).
-/
import Mathlib.Data.List.DropRight
import RequestQuery.Text.Blank
import RequestQuery.Text.Case

namespace RequestQuery.Text

set_option autoImplicit false

/-! ## Trimming -/

/-- Neither the first nor the last character is blank. -/
structure Trimmed (cs : List Char) : Prop where
  first : ∀ c ∈ cs.head?, isBlank c = false
  last : ∀ c ∈ cs.getLast?, isBlank c = false

theorem trimChars_eq (cs : List Char) :
    trimChars cs = (cs.dropWhile isBlank).rdropWhile isBlank := rfl

theorem trimmed_trimChars (cs : List Char) : Trimmed (trimChars cs) := by
  rw [trimChars_eq]
  constructor
  · intro c first
    obtain ⟨rest, whole⟩ := List.rdropWhile_prefix isBlank (cs.dropWhile isBlank)
    have front : (cs.dropWhile isBlank).head? = some c := by
      rw [← whole, List.head?_append, Option.mem_def.1 first, Option.some_or]
    have notBlank := List.head?_dropWhile_not isBlank cs
    rwa [front] at notBlank
  · intro c last
    obtain ⟨someLeft, same⟩ := List.mem_getLast?_eq_getLast last
    have notBlank := List.rdropWhile_last_not isBlank (cs.dropWhile isBlank) someLeft
    rw [← same] at notBlank
    exact Bool.eq_false_iff.2 notBlank

theorem trimChars_of_trimmed {cs : List Char} (trimmed : Trimmed cs) : trimChars cs = cs := by
  have front : cs.dropWhile isBlank = cs := by
    rw [List.dropWhile_eq_self_iff]
    intro someLeft
    rw [trimmed.first _ (List.head?_eq_getElem? .. ▸ List.getElem?_eq_getElem someLeft)]
    exact Bool.false_ne_true
  rw [trimChars_eq, front, List.rdropWhile_eq_self_iff]
  intro someLeft
  rw [trimmed.last _ (List.getLast?_eq_some_getLast someLeft)]
  exact Bool.false_ne_true

theorem trim_of_trimmed {s : String} (trimmed : Trimmed s.toList) : trim s = s := by
  rw [trim, trimChars_of_trimmed trimmed, String.ofList_toList]

theorem trimmed_trim (s : String) : Trimmed (trim s).toList := by
  rw [trim, String.toList_ofList]
  exact trimmed_trimChars s.toList

theorem trim_trim (s : String) : trim (trim s) = trim s :=
  trim_of_trimmed (trimmed_trim s)

/-! ## Where the tables of the upper case lead -/

/-- No character of `other` is the upper case of a character of `run`: the ranges are apart, or
both runs take every second character and miss each other. -/
def CaseRun.avoids (run other : CaseRun) : Bool :=
  (run.target + (run.last - run.first)).blt other.first || other.last.blt run.target ||
    ((run.stride == 2 || run.last == run.first) && other.stride == 2 &&
      (run.target + other.first) % 2 == 1)

/-- The upper case of a run lies outside a range. -/
def CaseRun.outside (run : CaseRun) (range : Nat × Nat) : Bool :=
  (run.target + (run.last - run.first)).blt range.1 || range.2.blt run.target

theorem CaseRun.map?_eq_some_iff {run : CaseRun} {n m : Nat} :
    run.map? n = some m ↔
      (run.first ≤ n ∧ n ≤ run.last ∧ (n - run.first) % run.stride = 0) ∧
        run.target + (n - run.first) = m := by
  simp [CaseRun.map?]

theorem CaseRun.map?_of_avoids {run other : CaseRun} {n m : Nat} (mapped : run.map? n = some m)
    (avoids : run.avoids other = true) : other.map? m = none := by
  obtain ⟨⟨from_, upTo, steps⟩, rfl⟩ := map?_eq_some_iff.1 mapped
  simp only [CaseRun.avoids, Bool.or_eq_true, Bool.and_eq_true, Nat.blt_eq, beq_iff_eq] at avoids
  rw [CaseRun.map?, if_neg]
  rintro ⟨low, high, even⟩
  rcases avoids with (below | above) | ⟨⟨pace, second⟩, odd⟩
  · omega
  · omega
  · rw [second] at even
    rcases pace with every | single
    · rw [every] at steps
      omega
    · omega

theorem CaseRun.not_in_of_outside {run : CaseRun} {n m : Nat} (mapped : run.map? n = some m)
    {range : Nat × Nat} (outside : run.outside range = true) : ¬(range.1 ≤ m ∧ m ≤ range.2) := by
  obtain ⟨⟨from_, upTo, _⟩, rfl⟩ := map?_eq_some_iff.1 mapped
  simp only [CaseRun.outside, Bool.or_eq_true, Nat.blt_eq] at outside
  omega

/-- The ranges that no run leads into: the characters with an expansion, the code points that stand
for no character, and the blank ones. -/
def shunned : List (Nat × Nat) :=
  expansions.map (fun item => (item.1, item.1)) ++ (0xD800, 0xDFFF) :: blankRanges

theorem caseRuns_avoid :
    (caseRuns.all fun run => caseRuns.all run.avoids) = true := by decide +kernel

theorem caseRuns_outside :
    (caseRuns.all fun run => shunned.all run.outside) = true := by decide +kernel

theorem caseRuns_lt :
    ∀ run ∈ caseRuns, run.target + (run.last - run.first) < 0x110000 := by decide +kernel

/-- A code point that is its own upper case and stands for a character that is not blank. -/
structure Settled (m : Nat) : Prop where
  fixed : upperCode m = [m]
  valid : m.isValidChar
  notBlank : inRanges blankRanges m = false

instance (m : Nat) : Decidable (Settled m) :=
  decidable_of_iff (upperCode m = [m] ∧ m.isValidChar ∧ inRanges blankRanges m = false)
    ⟨fun ⟨fixed, valid, notBlank⟩ => ⟨fixed, valid, notBlank⟩,
      fun ⟨fixed, valid, notBlank⟩ => ⟨fixed, valid, notBlank⟩⟩

theorem expansions_settled : ∀ item ∈ expansions, ∀ m ∈ item.2, Settled m := by decide +kernel

theorem settled_of_run {run : CaseRun} (listed : run ∈ caseRuns) {n m : Nat}
    (mapped : run.map? n = some m) : Settled m := by
  have outside : ∀ range ∈ shunned, ¬(range.1 ≤ m ∧ m ≤ range.2) := fun range member =>
    CaseRun.not_in_of_outside mapped
      (List.all_eq_true.1 (List.all_eq_true.1 caseRuns_outside run listed) range member)
  have unmapped : caseRuns.findSome? (·.map? m) = none :=
    List.findSome?_eq_none_iff.2 fun other member =>
      CaseRun.map?_of_avoids mapped
        (List.all_eq_true.1 (List.all_eq_true.1 caseRuns_avoid run listed) other member)
  have unexpanded : expansions.lookup m = none := by
    rw [List.lookup_eq_none_iff]
    intro item member
    have apart := outside (item.1, item.1)
      (List.mem_append_left _ (List.mem_map_of_mem member))
    rw [bne_iff_ne]
    rintro rfl
    exact apart ⟨Nat.le_refl _, Nat.le_refl _⟩
  have small : m < 0x110000 := by
    have := caseRuns_lt run listed
    obtain ⟨⟨_, upTo, _⟩, rfl⟩ := CaseRun.map?_eq_some_iff.1 mapped
    omega
  constructor
  · rw [upperCode, unmapped, unexpanded]
    rfl
  · have apart := outside (0xD800, 0xDFFF) (List.mem_append_right _ List.mem_cons_self)
    unfold Nat.isValidChar
    omega
  · rw [inRanges, List.any_eq_false]
    intro range member
    have apart := outside range (List.mem_append_right _ (List.mem_cons_of_mem _ member))
    simpa using apart

/-- The upper case of a code point is that point alone, or all of it is settled. -/
theorem upperCode_cases (n : Nat) :
    upperCode n = [n] ∨ ∀ m ∈ upperCode n, Settled m := by
  unfold upperCode
  cases mapped : caseRuns.findSome? (·.map? n) with
  | some m =>
      obtain ⟨run, listed, leads⟩ := List.exists_of_findSome?_eq_some mapped
      exact .inr fun other member => List.mem_singleton.1 member ▸ settled_of_run listed leads
  | none =>
      cases expanded : expansions.lookup n with
      | none => exact .inl rfl
      | some ms =>
          obtain ⟨before, after, whole, _⟩ := List.lookup_eq_some_iff.1 expanded
          refine .inr fun m member => expansions_settled (n, ms) ?_ m member
          rw [whole]
          exact List.mem_append_right _ List.mem_cons_self

theorem upperCode_ne_nil (n : Nat) : upperCode n ≠ [] := by
  have someExpansion : ∀ item ∈ expansions, item.2 ≠ [] := by decide +kernel
  unfold upperCode
  cases caseRuns.findSome? (·.map? n) with
  | some m => exact List.cons_ne_nil m []
  | none =>
      cases expanded : expansions.lookup n with
      | none => exact List.cons_ne_nil n []
      | some ms =>
          obtain ⟨before, after, whole, _⟩ := List.lookup_eq_some_iff.1 expanded
          refine someExpansion (n, ms) ?_
          rw [whole]
          exact List.mem_append_right _ List.mem_cons_self

/-! ## Characters in upper case -/

theorem upperChar_ne_nil (c : Char) : upperChar c ≠ [] :=
  fun nothing => upperCode_ne_nil c.toNat (List.map_eq_nil_iff.1 nothing)

theorem toNat_ofNat {m : Nat} (valid : m.isValidChar) : (Char.ofNat m).toNat = m := by
  rw [Char.ofNat, dif_pos valid]
  rfl

/-- Characters of an upper case are in upper case, and not blank unless it is that of a blank. -/
theorem upperChar_of_mem {c d : Char} (member : d ∈ upperChar c) :
    upperChar d = [d] ∧ (isBlank c = false → isBlank d = false) := by
  obtain ⟨m, led, rfl⟩ := List.mem_map.1 member
  rcases upperCode_cases c.toNat with alone | settled
  · rw [alone, List.mem_singleton] at led
    rw [led, Char.ofNat_toNat, upperChar, alone, List.map_singleton, Char.ofNat_toNat]
    exact ⟨rfl, id⟩
  · have settled := settled m led
    rw [upperChar, isBlank, isBlank, toNat_ofNat settled.valid, settled.fixed]
    exact ⟨rfl, fun _ => settled.notBlank⟩

/-! ## Texts in upper case -/

theorem upper_upper (s : String) : upper (upper s) = upper s := by
  have again : ∀ c : Char, (upperChar c).flatMap upperChar = upperChar c := by
    intro c
    calc (upperChar c).flatMap upperChar
        = (upperChar c).flatMap fun d => [d] :=
          List.flatMap_congr fun d member => (upperChar_of_mem member).1
      _ = upperChar c := List.flatMap_singleton' _
  rw [upper, upper, String.toList_ofList, List.flatMap_assoc]
  simp only [again]

/-- Upper case puts no blank at either end. -/
theorem trimmed_upper {s : String} (trimmed : Trimmed s.toList) :
    Trimmed (upper s).toList := by
  have notBlank : ∀ {c d : Char}, isBlank c = false → d ∈ upperChar c → isBlank d = false :=
    fun visible member => (upperChar_of_mem member).2 visible
  rw [upper, String.toList_ofList]
  generalize s.toList = cs at trimmed
  constructor
  · cases cs with
    | nil => exact nofun
    | cons c cs =>
        intro d first
        rw [List.flatMap_cons, List.head?_append_of_ne_nil _ (upperChar_ne_nil c)] at first
        exact notBlank (trimmed.first c rfl) (List.mem_of_mem_head? first)
  · rcases List.eq_nil_or_concat' cs with rfl | ⟨cs, c, rfl⟩
    · exact nofun
    · intro d last
      rw [List.flatMap_append, List.flatMap_singleton,
        List.getLast?_append_of_ne_nil _ (upperChar_ne_nil c)] at last
      exact notBlank (trimmed.last c List.getLast?_concat) (List.mem_of_mem_getLast? last)

theorem trim_upper_trim (s : String) : trim (upper (trim s)) = upper (trim s) :=
  trim_of_trimmed (trimmed_upper (trimmed_trim s))

end RequestQuery.Text
