/-
# Expansion as one simultaneous substitution

A text falls into the references that are found in it from left to right and the characters between
them (`Reads`), in one way only (`existsUnique_reads`).  To substitute is to put the value of each
variable that is set in the place of its references, all at once, and to leave everything else as it
is written.

Expanding does something else: it replaces one reference after the other, each wherever it stands by
then.  A reference has one closing brace, at its end, so it cannot reach over another one; hence it
stands in its own places and nowhere else, unless one is left when they are replaced
(`replaceFrom_substituted`).  Where none is ever left when its turn has come (`Undisturbed`),
expanding is to substitute.  That is so if every dollar sign in the text opens a reference and
neither names nor values have any (`undisturbed_of_plain`).
-/
import Mathlib.Data.List.TakeWhile
import RequestQuery.Settings.Expansion

namespace RequestQuery.Settings

set_option autoImplicit false

/-! ## Texts that are closed by a brace -/

/-- The text ends with its only closing brace. -/
def Closed (cs : List Char) : Prop :=
  ∃ front, '}' ∉ front ∧ cs = front ++ ['}']

theorem split_at_brace {front back : List Char} (unclosed : '}' ∉ front) :
    (front ++ '}' :: back).takeWhile (· ≠ '}') = front ∧
      (front ++ '}' :: back).dropWhile (· ≠ '}') = '}' :: back := by
  have passed : ∀ c ∈ front, decide (c ≠ '}') = true := fun c member =>
    decide_eq_true fun same => unclosed (same ▸ member)
  rw [List.takeWhile_append_of_pos passed, List.dropWhile_append_of_pos passed]
  simp

namespace Closed

theorem ne_nil {cs : List Char} (closed : Closed cs) : cs ≠ [] := by
  obtain ⟨front, _, rfl⟩ := closed
  simp

theorem of_suffix {cs back : List Char} (closed : Closed cs) (suffix : back <:+ cs)
    (nonempty : back ≠ []) : Closed back := by
  obtain ⟨front, unclosed, rfl⟩ := closed
  rcases List.suffix_concat_iff.1 suffix with rfl | ⟨kept, rfl, within⟩
  · exact absurd rfl nonempty
  · exact ⟨kept, fun member => unclosed (within.subset member), rfl⟩

/-- At the front of a text there is at most one. -/
theorem eq_of_prefix {one other text : List Char} (first : Closed one) (second : Closed other)
    (starts : one <+: text) (alsoStarts : other <+: text) : one = other := by
  obtain ⟨front, unclosed, rfl⟩ := first
  obtain ⟨front', unclosed', rfl⟩ := second
  obtain ⟨back, rfl⟩ := starts
  obtain ⟨back', same⟩ := alsoStarts
  simp only [List.append_assoc, List.singleton_append] at same
  have fronts := congrArg (List.takeWhile (· ≠ '}')) same
  rw [(split_at_brace unclosed).1, (split_at_brace unclosed').1] at fronts
  rw [fronts]

end Closed

/-! ## Reading references -/

/-- Can this be the name in a reference? -/
def IsName (name : List Char) : Prop :=
  name ≠ [] ∧ '}' ∉ name

theorem IsName.closed {name : List Char} (named : IsName name) : Closed (reference name) :=
  ⟨'$' :: '{' :: name, by simpa using named.2, rfl⟩

theorem referenceAt?_eq_some_iff {cs name : List Char} :
    referenceAt? cs = some name ↔ IsName name ∧ reference name <+: cs := by
  constructor
  · intro found
    unfold referenceAt? at found
    split at found
    next rest =>
      simp only [Option.ite_none_left_eq_some, not_or, List.isEmpty_iff, Option.some.injEq] at found
      obtain ⟨⟨nonempty, closed⟩, rfl⟩ := found
      have member : '}' ∈ rest := by
        by_contra absent
        exact closed (List.dropWhile_eq_nil_iff.2 fun c member =>
          decide_eq_true fun same => absent (same ▸ member))
      obtain ⟨front, back, rfl, unclosed⟩ := List.eq_append_cons_of_mem member
      rw [(split_at_brace unclosed).1] at nonempty ⊢
      exact ⟨⟨nonempty, unclosed⟩, back, by simp [reference]⟩
    next => cases found
  · rintro ⟨⟨nonempty, unclosed⟩, rest, rfl⟩
    have split : reference name ++ rest = '$' :: '{' :: (name ++ '}' :: rest) := by
      simp [reference]
    obtain ⟨taken, left⟩ := @split_at_brace name rest unclosed
    rw [split, referenceAt?, taken, left]
    exact if_neg (by simp [nonempty])

inductive Piece where
  | char (c : Char)
  | reference (name : List Char)
  deriving DecidableEq, Repr

/-- A text read from left to right: at each place the reference that starts there, if there is one,
and otherwise one character. -/
inductive Reads : List Char → List Piece → Prop where
  | nil : Reads [] []
  | reference {name rest : List Char} {pieces : List Piece} (named : IsName name)
      (further : Reads rest pieces) :
      Reads (Settings.reference name ++ rest) (.reference name :: pieces)
  | char {c : Char} {rest : List Char} {pieces : List Piece}
      (unopened : ∀ name, IsName name → ¬Settings.reference name <+: c :: rest)
      (further : Reads rest pieces) : Reads (c :: rest) (.char c :: pieces)

/-- The names of the references among the pieces. -/
def namesOf (pieces : List Piece) : List (List Char) :=
  pieces.filterMap fun
    | .reference name => some name
    | .char _ => none

theorem mem_namesOf_cons {piece : Piece} {pieces : List Piece} {name : List Char}
    (member : name ∈ namesOf pieces) : name ∈ namesOf (piece :: pieces) := by
  cases piece with
  | char c => exact member
  | reference other => exact List.mem_cons_of_mem _ member

theorem referencesFrom_eq_drop (skip : Nat) (cs : List Char) :
    referencesFrom skip cs = referencesFrom 0 (cs.drop skip) := by
  induction cs generalizing skip with
  | nil => simp [referencesFrom]
  | cons c cs ih =>
      cases skip with
      | zero => rfl
      | succ skip =>
          rw [referencesFrom, List.drop_succ_cons]
          exact ih skip

namespace Reads

variable {cs : List Char} {pieces : List Piece}

theorem isName (read : Reads cs pieces) : ∀ name ∈ namesOf pieces, IsName name := by
  induction read with
  | nil => exact nofun
  | reference named _ ih => exact List.forall_mem_cons.2 ⟨named, ih⟩
  | char _ _ ih => exact ih

/-- Expanding finds the references of the text. -/
theorem references_eq (read : Reads cs pieces) : references cs = namesOf pieces := by
  unfold references
  induction read with
  | nil => rfl
  | @reference name rest pieces named _ ih =>
      have found := referenceAt?_eq_some_iff.2 ⟨named, List.prefix_append _ rest⟩
      have split : Settings.reference name ++ rest = '$' :: ('{' :: name ++ ['}'] ++ rest) := rfl
      have passed : ('{' :: name ++ ['}'] ++ rest).drop (Settings.reference name).length.pred =
          rest := by
        simp [Settings.reference]
      rw [split] at found ⊢
      rw [referencesFrom, found]
      change name :: referencesFrom _ _ = name :: namesOf pieces
      rw [referencesFrom_eq_drop, passed, ih]
  | @char c rest pieces unopened _ ih =>
      have none : referenceAt? (c :: rest) = .none := by
        cases found : referenceAt? (c :: rest) with
        | none => rfl
        | some name =>
            obtain ⟨named, starts⟩ := referenceAt?_eq_some_iff.1 found
            exact absurd starts (unopened name named)
      rw [referencesFrom, none]
      exact ih

theorem unique {others : List Piece} (read : Reads cs pieces) (again : Reads cs others) :
    pieces = others := by
  induction read generalizing others with
  | nil =>
      generalize empty : ([] : List Char) = text at again
      cases again with
      | nil => rfl
      | reference named _ =>
          exact absurd (congrArg List.length empty) (by simp [Settings.reference])
      | char _ _ => cases empty
  | @reference name rest pieces named _ ih =>
      generalize same : Settings.reference name ++ rest = text at again
      cases again with
      | nil => exact absurd (congrArg List.length same) (by simp [Settings.reference])
      | @reference other rest' pieces' named' further' =>
          have starts : Settings.reference other <+: Settings.reference name ++ rest :=
            same ▸ List.prefix_append _ _
          have alike := named.closed.eq_of_prefix named'.closed (List.prefix_append _ rest) starts
          have names : name = other := by simpa [Settings.reference] using alike
          subst names
          rw [ih (List.append_cancel_left same ▸ further')]
      | char unopened _ => exact absurd (same ▸ List.prefix_append _ rest) (unopened name named)
  | @char c rest pieces unopened _ ih =>
      generalize same : c :: rest = text at again
      cases again with
      | nil => cases same
      | @reference other rest' pieces' named' further' =>
          exact absurd (same ▸ List.prefix_append _ rest') (unopened other named')
      | char _ further' =>
          obtain ⟨rfl, rfl⟩ := List.cons.inj same
          rw [ih further']

end Reads

/-- The pieces of a text after its first `skip` characters, which belong to a reference before
them. -/
def piecesFrom (skip : Nat) : List Char → List Piece
  | [] => []
  | c :: cs =>
      match skip with
      | skip + 1 => piecesFrom skip cs
      | 0 =>
          match referenceAt? (c :: cs) with
          | some name => .reference name :: piecesFrom (reference name).length.pred cs
          | none => .char c :: piecesFrom 0 cs

theorem piecesFrom_eq_drop (skip : Nat) (cs : List Char) :
    piecesFrom skip cs = piecesFrom 0 (cs.drop skip) := by
  induction cs generalizing skip with
  | nil => simp [piecesFrom]
  | cons c cs ih =>
      cases skip with
      | zero => rfl
      | succ skip =>
          rw [piecesFrom, List.drop_succ_cons]
          exact ih skip

theorem reads_piecesFrom (cs : List Char) : Reads cs (piecesFrom 0 cs) := by
  induction length : cs.length using Nat.strongRecOn generalizing cs with
  | ind n ih =>
      subst length
      cases cs with
      | nil => exact .nil
      | cons c rest =>
          rw [piecesFrom]
          cases found : referenceAt? (c :: rest) with
          | none =>
              refine .char (fun name named starts => ?_)
                (ih rest.length (Nat.lt_succ_self _) rest rfl)
              rw [referenceAt?_eq_some_iff.2 ⟨named, starts⟩] at found
              cases found
          | some name =>
              obtain ⟨named, back, split⟩ := referenceAt?_eq_some_iff.1 found
              have shorter : back.length < (c :: rest).length := by
                rw [← split, List.length_append]
                simp [reference]
              have tail : rest = '{' :: name ++ ['}'] ++ back := (List.cons.inj split).2.symm
              have passed : rest.drop (reference name).length.pred = back := by
                rw [tail]
                simp [reference]
              change Reads _ (.reference name :: piecesFrom _ rest)
              rw [piecesFrom_eq_drop, passed, ← split]
              exact .reference named (ih back.length shorter back rfl)

/-- **Every text is read in one way.** -/
theorem existsUnique_reads (cs : List Char) : ∃! pieces, Reads cs pieces :=
  ⟨piecesFrom 0 cs, reads_piecesFrom cs, fun _ read => read.unique (reads_piecesFrom cs)⟩

/-! ## Substituting -/

/-- A piece with its value in its place, if it is a reference to a variable that is set. -/
def Piece.value (environment : Environment) : Piece → List Char
  | .char c => [c]
  | .reference name =>
      match environment (String.ofList name) with
      | some value => value.toList
      | none => Settings.reference name

/-- All values in their places at once. -/
def substituted (environment : Environment) (pieces : List Piece) : List Char :=
  pieces.flatMap (Piece.value environment)

/-- The environment of those variables only that have been done. -/
def limited (environment : Environment) (done : List (List Char)) : Environment :=
  fun name => if name.toList ∈ done then environment name else none

/-- Is the variable of this name set? -/
def IsSet (environment : Environment) (name : List Char) : Prop :=
  (environment (String.ofList name)).isSome = true

instance (environment : Environment) (name : List Char) : Decidable (IsSet environment name) :=
  inferInstanceAs (Decidable (_ = true))

theorem substituted_cons (environment : Environment) (piece : Piece) (pieces : List Piece) :
    substituted environment (piece :: pieces) =
      piece.value environment ++ substituted environment pieces :=
  List.flatMap_cons

theorem substituted_congr {one other : Environment} {pieces : List Piece}
    (same : ∀ name ∈ namesOf pieces, one (String.ofList name) = other (String.ofList name)) :
    substituted one pieces = substituted other pieces := by
  induction pieces with
  | nil => rfl
  | cons piece pieces ih =>
      rw [substituted_cons, substituted_cons]
      cases piece with
      | char c => rw [ih same]; rfl
      | reference name =>
          obtain ⟨first, others⟩ := List.forall_mem_cons.1 same
          rw [ih others, Piece.value, Piece.value, first]

/-- A text with nothing substituted is as it was written. -/
theorem Reads.substituted_nothing {cs : List Char} {pieces : List Piece} (read : Reads cs pieces)
    (environment : Environment) : substituted (limited environment []) pieces = cs := by
  induction read with
  | nil => rfl
  | reference named _ ih =>
      rw [substituted_cons, ih]
      rfl
  | char _ _ ih =>
      rw [substituted_cons, ih]
      rfl

theorem limited_concat (environment : Environment) (done : List (List Char)) (name : List Char) :
    limited environment (done ++ [name]) = limited environment (name :: done) := by
  funext other
  simp [limited, or_comm]

/-- One more variable changes the references to it and nothing else. -/
theorem Piece.value_step (environment : Environment) (done : List (List Char))
    (name : List Char) (piece : Piece) :
    piece.value (limited environment (name :: done)) = piece.value (limited environment done) ∨
      piece = .reference name ∧
        piece.value (limited environment done) = Settings.reference name := by
  cases piece with
  | char c => exact .inl rfl
  | reference other =>
      by_cases same : other = name
      · subst same
        by_cases member : other ∈ done
        · simp [Piece.value, limited, member]
        · exact .inr ⟨rfl, by simp [Piece.value, limited, member]⟩
      · simp [Piece.value, limited, same]

/-! ## Replacing one reference -/

theorem replaceFrom_eq_drop (old new : List Char) (skip : Nat) (cs : List Char) :
    replaceFrom old new skip cs = replaceFrom old new 0 (cs.drop skip) := by
  induction cs generalizing skip with
  | nil => simp [replaceFrom]
  | cons c cs ih =>
      cases skip with
      | zero => rfl
      | succ skip =>
          rw [replaceFrom, List.drop_succ_cons]
          exact ih skip

theorem replaceFrom_found {old : List Char} (nonempty : old ≠ []) (new rest : List Char) :
    replaceFrom old new 0 (old ++ rest) = new ++ replaceFrom old new 0 rest := by
  obtain ⟨c, cs, rfl⟩ := List.exists_cons_of_ne_nil nonempty
  have starts : (c :: cs).isPrefixOf (c :: cs ++ rest) = true :=
    List.isPrefixOf_iff_prefix.2 (List.prefix_append _ _)
  rw [List.cons_append] at starts ⊢
  rw [replaceFrom, if_pos starts, replaceFrom_eq_drop]
  simp

/-- A part of a text in which nothing to be replaced starts stays. -/
theorem replaceFrom_passed {old new front rest : List Char}
    (absent : ∀ part, part <:+ front → part ≠ [] → ¬old <+: part ++ rest) :
    replaceFrom old new 0 (front ++ rest) = front ++ replaceFrom old new 0 rest := by
  induction front with
  | nil => rfl
  | cons c front ih =>
      have here : ¬old.isPrefixOf (c :: (front ++ rest)) = true := fun starts =>
        absent (c :: front) List.suffix_rfl (List.cons_ne_nil _ _)
          (List.isPrefixOf_iff_prefix.1 starts)
      rw [List.cons_append, replaceFrom, if_neg here, List.cons_append,
        ih fun part suffix => absent part (suffix.trans (List.suffix_cons _ _))]

section Step

variable {environment : Environment} {done : List (List Char)} {piece : Piece}
  {pieces : List Piece} {name : List Char}

/-- What starts a text, and is closed before the reference to be replaced, starts the text with that
one replaced. -/
theorem prefix_of_step {cs : List Char} (isName : IsName name) (closed : Closed cs)
    (clear : ¬reference name <:+ cs)
    (starts : cs <+: substituted (limited environment done) pieces) :
    cs <+: substituted (limited environment (name :: done)) pieces := by
  induction pieces generalizing cs with
  | nil => exact starts
  | cons piece pieces ih =>
      rw [substituted_cons] at starts ⊢
      rcases piece.value_step environment done name with same | ⟨_, written⟩
      · rw [same]
        rcases List.prefix_or_prefix_of_prefix starts (List.prefix_append _ _) with
          within | ⟨back, rfl⟩
        · exact List.prefix_append_of_prefix within
        · rw [List.prefix_append_right_inj] at starts ⊢
          by_cases empty : back = []
          · rw [empty]
            exact List.nil_prefix
          · exact ih (closed.of_suffix (List.suffix_append _ _) empty)
              (fun ends => clear (List.suffix_append_of_suffix ends)) starts
      · rw [written] at starts
        have same := closed.eq_of_prefix isName.closed starts (List.prefix_append _ _)
        exact absurd (same ▸ List.suffix_rfl) clear

/-- No reference starts inside a piece that is not replaced, if none is left afterwards. -/
theorem not_prefix_of_gone (isName : IsName name)
    (gone : ¬reference name <:+: substituted (limited environment (name :: done)) (piece :: pieces))
    (same : piece.value (limited environment (name :: done)) =
      piece.value (limited environment done)) {part : List Char}
    (suffix : part <:+ piece.value (limited environment done)) (nonempty : part ≠ []) :
    ¬reference name <+: part ++ substituted (limited environment done) pieces := by
  intro starts
  suffices reference name <+: part ++ substituted (limited environment (name :: done)) pieces by
    refine gone (this.isInfix.trans ?_)
    obtain ⟨front, whole⟩ := same ▸ suffix
    rw [substituted_cons, ← whole, List.append_assoc]
    exact List.infix_append_right
  rcases List.prefix_or_prefix_of_prefix starts (List.prefix_append _ _) with
    within | ⟨back, split⟩
  · exact List.prefix_append_of_prefix within
  · rw [← split, List.prefix_append_right_inj] at starts ⊢
    by_cases empty : back = []
    · rw [empty]
      exact List.nil_prefix
    · refine prefix_of_step isName (isName.closed.of_suffix ⟨part, split⟩ empty) (fun ends => ?_)
        starts
      have lengths := congrArg List.length split
      have shorter := ends.length_le
      have positive := List.length_pos_iff.2 nonempty
      rw [List.length_append] at lengths
      omega

/-- **One reference is replaced in its own places**, whatever has been replaced before. -/
theorem replaceFrom_substituted {value : String} (isName : IsName name)
    (set : environment (String.ofList name) = some value)
    (gone : ¬reference name <:+: substituted (limited environment (name :: done)) pieces) :
    replaceFrom (reference name) value.toList 0 (substituted (limited environment done) pieces) =
      substituted (limited environment (name :: done)) pieces := by
  induction pieces with
  | nil => rfl
  | cons piece pieces ih =>
      have rest := ih fun left => gone <| by
        rw [substituted_cons]
        exact List.infix_append_of_infix_right left
      rcases piece.value_step environment done name with same | ⟨rfl, written⟩
      · rw [substituted_cons, substituted_cons, same,
          replaceFrom_passed fun part suffix nonempty =>
            not_prefix_of_gone isName gone same suffix nonempty, rest]
      · have after : (Piece.reference name).value (limited environment (name :: done)) =
            value.toList := by
          simp [Piece.value, limited, set]
        rw [substituted_cons, substituted_cons, written, after,
          replaceFrom_found isName.closed.ne_nil, rest]

end Step

/-! ## Replacing all references -/

/-- When a reference has had its turn, none of its kind is left in the text. -/
def Undisturbed (environment : Environment) (pieces : List Piece) : Prop :=
  ∀ turn (within : turn < (namesOf pieces).length), IsSet environment (namesOf pieces)[turn] →
    ¬reference (namesOf pieces)[turn] <:+:
      substituted (limited environment ((namesOf pieces).take (turn + 1))) pieces

instance (environment : Environment) (pieces : List Piece) :
    Decidable (Undisturbed environment pieces) :=
  inferInstanceAs (Decidable (∀ _ _, _ → ¬_))

theorem foldl_expandReference {environment : Environment} {pieces : List Piece}
    (undisturbed : Undisturbed environment pieces)
    (named : ∀ name ∈ namesOf pieces, IsName name) (turns : Nat)
    (within : turns ≤ (namesOf pieces).length) :
    ((namesOf pieces).take turns).foldl (expandReference environment)
        (substituted (limited environment []) pieces) =
      substituted (limited environment ((namesOf pieces).take turns)) pieces := by
  induction turns with
  | zero => rfl
  | succ turn ih =>
      have gone := undisturbed turn within
      rw [List.take_succ_eq_append_getElem within, limited_concat] at gone ⊢
      rw [List.foldl_append, ih (Nat.le_of_succ_le within), List.foldl_cons, List.foldl_nil,
        expandReference]
      generalize (namesOf pieces).take turn = done at gone ⊢
      have isName := named _ (List.getElem_mem within)
      generalize (namesOf pieces)[turn] = name at gone isName ⊢
      cases found : environment (String.ofList name) with
      | none =>
          -- A variable that is not set has no value in either environment.
          refine substituted_congr fun other _ => ?_
          by_cases same : other = name
          · simp [limited, same, found]
          · simp [limited, same]
      | some value =>
          exact replaceFrom_substituted isName found (gone (by rw [IsSet, found]; rfl))

/-! ## Plain texts -/

section Plain

variable {environment : Environment} {name : List Char}

theorem infix_of_infix_append {front back : List Char} (plain : '$' ∉ front)
    (inside : reference name <:+: front ++ back) : reference name <:+: back := by
  induction front with
  | nil => exact inside
  | cons c front ih =>
      rw [List.mem_cons, not_or] at plain
      rcases List.infix_cons_iff.1 inside with starts | inside
      · exact absurd (List.cons_prefix_cons.1 starts).1 plain.1
      · exact ih plain.2 inside

/-- Where no dollar sign is but those of references that stay, a reference that does not stay is
nowhere. -/
theorem not_infix_of_plain {pieces : List Piece} (isName : IsName name)
    (set : IsSet environment name) (opened : .char '$' ∉ pieces)
    (named : ∀ other ∈ namesOf pieces, IsName other ∧ '$' ∉ other)
    (values : ∀ other ∈ namesOf pieces, ∀ value ∈ environment (String.ofList other),
      '$' ∉ value.toList) : ¬reference name <:+: substituted environment pieces := by
  induction pieces with
  | nil => exact fun inside => isName.closed.ne_nil (List.infix_nil.1 inside)
  | cons piece pieces ih =>
      intro inside
      rw [List.mem_cons, not_or] at opened
      have rest := ih opened.2 (fun other member => named other (mem_namesOf_cons member))
        fun other member => values other (mem_namesOf_cons member)
      rw [substituted_cons] at inside
      cases piece with
      | char c =>
          have plain : '$' ∉ [c] := fun member =>
            opened.1 (congrArg Piece.char (List.mem_singleton.1 member))
          exact rest (infix_of_infix_append plain inside)
      | reference other =>
          obtain ⟨isOther, plain⟩ := named other List.mem_cons_self
          have none := values other List.mem_cons_self
          rw [Piece.value] at inside
          cases found : environment (String.ofList other) with
          | some value =>
              rw [found] at inside
              exact rest (infix_of_infix_append (none value found) inside)
          | none =>
              rw [found] at inside
              rcases List.infix_cons_iff.1 inside with starts | inside
              · have same := isName.closed.eq_of_prefix isOther.closed starts
                  (List.prefix_append _ _)
                obtain rfl : name = other := by simpa [reference] using same
                rw [IsSet, found] at set
                cases set
              · exact rest (infix_of_infix_append (by simpa using plain) inside)

theorem undisturbed_of_plain {pieces : List Piece} (opened : .char '$' ∉ pieces)
    (named : ∀ other ∈ namesOf pieces, IsName other)
    (plain : ∀ other ∈ namesOf pieces, '$' ∉ other ∧
      ∀ value ∈ environment (String.ofList other), '$' ∉ value.toList) :
    Undisturbed environment pieces := by
  intro turn within set
  have member := List.getElem_mem within
  have each : ∀ other ∈ namesOf pieces, IsName other ∧ '$' ∉ other := fun other among =>
    ⟨named other among, (plain other among).1⟩
  refine not_infix_of_plain (named _ member) ?_ opened each fun other among value found => ?_
  · have taken : (namesOf pieces)[turn] ∈ (namesOf pieces).take (turn + 1) := by
      rw [List.take_succ_eq_append_getElem within]
      exact List.mem_append_right _ (List.mem_singleton_self _)
    rw [IsSet, limited, if_pos (by rwa [String.toList_ofList])]
    exact set
  · exact (plain other among).2 value (Option.ite_none_right_eq_some.1 found).2

end Plain

/-- **Expansion is one simultaneous substitution wherever references are undisturbed.**  The
references of a text are those found from left to right, in one way only; each of them whose
variable is set is replaced by its value, the others and all that is around them stay, and no value
is expanded again.  References are undisturbed in plain texts. -/
theorem expand_eq_substituted (environment : Environment) (text : String) :
    (∃! pieces, Reads text.toList pieces) ∧
      ∀ pieces, Reads text.toList pieces →
        (Undisturbed environment pieces →
          (expand environment text).toList = substituted environment pieces) ∧
        (.char '$' ∉ pieces →
          (∀ name ∈ namesOf pieces, '$' ∉ name ∧
            ∀ value ∈ environment (String.ofList name), '$' ∉ value.toList) →
          Undisturbed environment pieces) := by
  refine ⟨existsUnique_reads _, fun pieces read => ⟨fun undisturbed => ?_, fun opened plain =>
    undisturbed_of_plain opened read.isName plain⟩⟩
  have start := read.substituted_nothing environment
  have ended := foldl_expandReference undisturbed read.isName _ (Nat.le_refl _)
  rw [start, List.take_length, ← read.references_eq] at ended
  rw [expand, String.toList_ofList, ended, read.references_eq]
  refine substituted_congr fun name member => ?_
  simp [limited, member]

/-- A value that refers to a variable whose turn is over stays as it is, and so does a reference to
a variable that is not set. -/
theorem expand_eq_substituted_late :
    let environment : Environment := fun name =>
      if name = "KEY" then some "$$" else if name = "URL" then some "$\x7bKEY\x7d" else none
    let text := "$\x7bKEY\x7d $\x7bURL\x7d $\x7bPORT\x7d"
    ∃ pieces, Reads text.toList pieces ∧ Undisturbed environment pieces ∧
      (expand environment text).toList = "$$ $\x7bKEY\x7d $\x7bPORT\x7d".toList := by
  intro environment text
  have read := reads_piecesFrom text.toList
  have undisturbed : Undisturbed environment (piecesFrom 0 text.toList) := by decide +kernel
  refine ⟨_, read, undisturbed, ?_⟩
  rw [((expand_eq_substituted environment text).2 _ read).1 undisturbed]
  decide +kernel

/-- A reference that a value brings along is replaced if the text refers to the same variable later,
and one inside the reference to a variable that is not set is replaced as well. -/
theorem expand_not_simultaneous :
    let brought : Environment := fun name =>
      if name = "A" then some "$\x7bB\x7d" else if name = "B" then some "x" else none
    let unset : Environment := fun name => if name = "B" then some "x" else none
    (∃ pieces, Reads "$\x7bA\x7d-$\x7bB\x7d".toList pieces ∧
      substituted brought pieces = "$\x7bB\x7d-x".toList ∧
        expand brought "$\x7bA\x7d-$\x7bB\x7d" = "x-x") ∧
      ∃ pieces, Reads "$\x7bA$\x7bB\x7d-$\x7bB\x7d".toList pieces ∧
        substituted unset pieces = "$\x7bA$\x7bB\x7d-x".toList ∧
          expand unset "$\x7bA$\x7bB\x7d-$\x7bB\x7d" = "$\x7bAx-x" := by
  intro brought unset
  exact ⟨⟨_, reads_piecesFrom _, by decide +kernel, by decide +kernel⟩,
    ⟨_, reads_piecesFrom _, by decide +kernel, by decide +kernel⟩⟩

end RequestQuery.Settings
