/-
# The text of a value is read as that value

The reader undoes the printer.  What follows a value that is written inside another one is a comma,
a bracket or a brace, and what is read of the value ends there: for a number because no reader of
numbers looks beyond it, for everything else because the value has a mark at its end.  So one lemma
for a value, one for items and one for members follow each other down the value (`value_chars`).

The fuel lasts because every call is made for a text that is longer than that of the calls it makes.
The depth lasts exactly for the values that are nested no deeper, so a whole text is refused when its
value is nested too deeply and is read as the value otherwise (`ofTextUpTo?_text`).

Whether a double is read back is a question of its own (`DoublesReadBack`): the digits are exact, but
the reader rounds more than once.
-/
import RequestQuery.Proofs.Json.Reading

namespace RequestQuery.Json

set_option autoImplicit false

open Reader (Ends ends_nil ends_cons)

/-! ## Values whose parts are read back -/

/-- The number reader, given the text of the number, finds that number and nothing after it. -/
def Number.ReadsBack (n : Number) : Prop :=
  Reader.number? n.chars = some (n, [])

instance (n : Number) : Decidable n.ReadsBack :=
  inferInstanceAs (Decidable (_ = _))

theorem Number.readsBack_integer {n : Int} (isWord : IsWord n) :
    (Number.integer n isWord).ReadsBack :=
  Reader.number?_integerChars isWord

theorem Number.startsNumber_chars (n : Number) : Decimal.StartsNumber n.chars := by
  cases n with
  | integer n isWord => exact Decimal.startsNumber_integerChars n
  | double x finite => exact Decimal.startsNumber_doubleChars x

namespace Value

mutual

/-- Every double of the value is read back from its text. -/
def DoublesReadBack : Value → Prop
  | .number (.double x finite) => (Number.double x finite).ReadsBack
  | .array items => allDoublesReadBack items
  | .object members => allMembersDoublesReadBack members
  | _ => True

def allDoublesReadBack : List Value → Prop
  | [] => True
  | v :: vs => v.DoublesReadBack ∧ allDoublesReadBack vs

def allMembersDoublesReadBack : List (String × Value) → Prop
  | [] => True
  | (_, v) :: rest => v.DoublesReadBack ∧ allMembersDoublesReadBack rest

end

theorem readsBack_of_doubles {n : Number} (doubles : DoublesReadBack (.number n)) :
    n.ReadsBack := by
  cases n with
  | integer n isWord => exact Number.readsBack_integer isWord
  | double x finite => simpa only [DoublesReadBack] using doubles

theorem DoublesReadBack.ofFloat {x : Float} (finite : x.isFinite = true)
    (back : (Number.double x finite).ReadsBack) : (Value.ofFloat x).DoublesReadBack := by
  rw [Value.ofFloat, Number.ofFloat?, dif_pos finite]
  exact back

/-! ## How a value starts -/

theorem not_space_of_first {c : Char} (first : c = '-' ∨ c.isDigit = true) :
    Reader.isSpace c = false := by
  rw [Bool.eq_false_iff]
  intro space
  simp only [Reader.isSpace, Bool.or_eq_true, decide_eq_true_eq] at space
  rcases space with ((rfl | rfl) | rfl) | rfl <;> exact absurd first (by decide)

/-- A value starts neither with a blank nor like the end of an array. -/
theorem exists_first_chars (v : Value) :
    ∃ c cs, v.chars = c :: cs ∧ Reader.isSpace c = false ∧ c ≠ ']' := by
  cases v with
  | null => exact ⟨'n', _, rfl, rfl, by decide⟩
  | bool b => cases b <;> exact ⟨_, _, rfl, rfl, by decide⟩
  | number n =>
      obtain ⟨c, cs, text, first⟩ := n.startsNumber_chars
      refine ⟨c, cs, text, not_space_of_first first, ?_⟩
      rintro rfl
      exact absurd first (by decide)
  | string s => exact ⟨'"', _, rfl, rfl, by decide⟩
  | array items => exact ⟨'[', _, rfl, rfl, by decide⟩
  | object members => exact ⟨'\x7b', _, rfl, rfl, by decide⟩

theorem length_chars_pos (v : Value) : 0 < v.chars.length := by
  obtain ⟨c, cs, text, -⟩ := v.exists_first_chars
  rw [text]
  exact Nat.succ_pos _

theorem skipSpace_cons {c : Char} (noSpace : Reader.isSpace c = false) (cs : List Char) :
    Reader.skipSpace (c :: cs) = c :: cs := by
  rw [Reader.skipSpace, List.dropWhile_cons_of_neg (by rw [noSpace]; exact Bool.false_ne_true)]

theorem stringChars_append (s : String) (rest : List Char) :
    stringChars s ++ rest = '"' :: (s.toList.flatMap escapedChar ++ '"' :: rest) := by
  rw [stringChars, List.cons_append, List.cons_append, List.append_assoc, List.singleton_append]

/-! ## Reading one value -/

section One

variable (fuel depth : Nat)

theorem value_number {cs : List Char} (starts : Decimal.StartsNumber cs) :
    Reader.value (fuel + 1) depth cs =
      (Reader.number? cs).map fun r => (.number r.1, r.2) := by
  obtain ⟨c, cs, rfl, first⟩ := starts
  rw [Reader.value, skipSpace_cons (not_space_of_first first)]
  split
  case h_7 => rfl
  all_goals
    next same =>
      cases same
      exact absurd first (by decide)

theorem value_string (s : String) (rest : List Char) :
    Reader.value (fuel + 1) depth (stringChars s ++ rest) = some (.string s, rest) := by
  rw [stringChars_append, Reader.value, skipSpace_cons rfl]
  simp only [Reader.stringTail_escaped, Option.map_some, String.ofList_toList]

theorem value_noItems (rest : List Char) :
    Reader.value (fuel + 1) (depth + 1) ('[' :: ']' :: rest) = some (.array [], rest) := by
  rw [Reader.value, skipSpace_cons rfl]
  simp only [skipSpace_cons (c := ']') rfl]

theorem value_items {c : Char} (noSpace : Reader.isSpace c = false) (noEnd : c ≠ ']')
    (cs : List Char) :
    Reader.value (fuel + 1) (depth + 1) ('[' :: c :: cs) =
      (Reader.items fuel depth (c :: cs)).map fun r => (.array r.1, r.2) := by
  rw [Reader.value, skipSpace_cons rfl]
  simp only [skipSpace_cons noSpace]
  split
  next same => exact absurd (List.cons.inj same).1 noEnd
  next => rfl

theorem value_noMembers (rest : List Char) :
    Reader.value (fuel + 1) (depth + 1) ('\x7b' :: '\x7d' :: rest) = some (.object [], rest) := by
  rw [Reader.value, skipSpace_cons rfl]
  simp only [skipSpace_cons (c := '\x7d') rfl]

theorem value_members (cs : List Char) :
    Reader.value (fuel + 1) (depth + 1) ('\x7b' :: '"' :: cs) =
      (Reader.members fuel depth ('"' :: cs)).map fun r => (.object (Ordered.ofList r.1), r.2) := by
  rw [Reader.value, skipSpace_cons rfl]
  simp only [skipSpace_cons (c := '"') rfl]
  rfl

theorem value_tooDeep {opening : Char} (opens : opening = '[' ∨ opening = '\x7b')
    (cs : List Char) : Reader.value (fuel + 1) 0 (opening :: cs) = none := by
  rcases opens with rfl | rfl
  all_goals
    rw [Reader.value, skipSpace_cons rfl]
    rfl

end One

/-! ## Reading items and members -/

section Many

variable {fuel depth : Nat} {v : Value} {cs rest : List Char}

theorem items_refused (refused : Reader.value fuel depth cs = none) :
    Reader.items (fuel + 1) depth cs = none := by
  rw [Reader.items, refused]
  rfl

theorem items_last (read : Reader.value fuel depth cs = some (v, ']' :: rest)) :
    Reader.items (fuel + 1) depth cs = some ([v], rest) := by
  rw [Reader.items, read]
  rfl

theorem items_more (read : Reader.value fuel depth cs = some (v, ',' :: rest)) :
    Reader.items (fuel + 1) depth cs =
      (Reader.items fuel depth rest).map fun r => (v :: r.1, r.2) := by
  rw [Reader.items, read]
  simp only [Option.bind_eq_bind, Option.bind_some, skipSpace_cons (c := ',') rfl]
  cases Reader.items fuel depth rest <;> rfl

variable (name : String)

theorem members_refused (refused : Reader.value fuel depth cs = none) :
    Reader.members (fuel + 1) depth (stringChars name ++ ':' :: cs) = none := by
  rw [stringChars_append, Reader.members, skipSpace_cons rfl]
  simp only [Reader.stringTail_escaped, Option.bind_eq_bind, Option.bind_some,
    skipSpace_cons (c := ':') rfl, refused, Option.bind_none]

theorem members_last (read : Reader.value fuel depth cs = some (v, '\x7d' :: rest)) :
    Reader.members (fuel + 1) depth (stringChars name ++ ':' :: cs) = some ([(name, v)], rest) := by
  rw [stringChars_append, Reader.members, skipSpace_cons rfl]
  simp only [Reader.stringTail_escaped, Option.bind_eq_bind, Option.bind_some,
    skipSpace_cons (c := ':') rfl, read, skipSpace_cons (c := '\x7d') rfl, String.ofList_toList]
  rfl

theorem members_more (read : Reader.value fuel depth cs = some (v, ',' :: rest)) :
    Reader.members (fuel + 1) depth (stringChars name ++ ':' :: cs) =
      (Reader.members fuel depth rest).map fun r => ((name, v) :: r.1, r.2) := by
  rw [stringChars_append, Reader.members, skipSpace_cons rfl]
  simp only [Reader.stringTail_escaped, Option.bind_eq_bind, Option.bind_some,
    skipSpace_cons (c := ':') rfl, read, skipSpace_cons (c := ',') rfl, String.ofList_toList]
  cases Reader.members fuel depth rest <;> rfl

end Many

/-! ## Reading what was written -/

theorem exists_first_itemChars (v : Value) (vs : List Value) (rest : List Char) :
    ∃ c cs, itemChars (v :: vs) ++ rest = c :: cs ∧ Reader.isSpace c = false ∧ c ≠ ']' := by
  obtain ⟨c, cs, text, noSpace, noEnd⟩ := v.exists_first_chars
  cases vs with
  | nil => exact ⟨c, cs ++ rest, by rw [itemChars, text, List.cons_append], noSpace, noEnd⟩
  | cons w vs =>
      refine ⟨c, cs ++ ',' :: itemChars (w :: vs) ++ rest, ?_, noSpace, noEnd⟩
      rw [itemChars, text]
      · rfl
      · exact fun nothing => nomatch nothing

theorem exists_first_memberChars (name : String) (v : Value) (members : List (String × Value))
    (rest : List Char) : ∃ cs, memberChars ((name, v) :: members) ++ rest = '"' :: cs := by
  cases members with
  | nil => exact ⟨_, rfl⟩
  | cons entry members => exact ⟨_, rfl⟩

/-- What is nested no deeper than allowed is read. -/
theorem read_of_fits {read : Option (Value × List Char)} {v : Value} {depth : Nat}
    {rest : List Char} (fits : v.depth ≤ depth) (found : read = some (v, rest)) :
    read = if v.depth ≤ depth then some (v, rest) else none := by
  rw [if_pos fits, found]

mutual

/-- The recursion goes down the value.  The fuel follows the text: one unit is left for every
character, and one more where items are read, since one item may be all there is between the
brackets. -/
theorem value_chars : ∀ (v : Value) (fuel depth : Nat) {rest : List Char},
    v.chars.length ≤ fuel → v.Distinct → v.DoublesReadBack → Ends rest →
      Reader.value fuel depth (v.chars ++ rest) =
        if v.depth ≤ depth then some (v, rest) else none
  | v, 0, _, _, enough, _, _, _ => absurd v.length_chars_pos (by omega)
  | .null, fuel + 1, depth, rest, _, _, _, _ => read_of_fits (Nat.zero_le depth) rfl
  | .bool true, fuel + 1, depth, rest, _, _, _, _ => read_of_fits (Nat.zero_le depth) rfl
  | .bool false, fuel + 1, depth, rest, _, _, _, _ => read_of_fits (Nat.zero_le depth) rfl
  | .number n, fuel + 1, depth, rest, _, _, doubles, ends => by
      have starts : Decimal.StartsNumber (n.chars ++ rest) := by
        obtain ⟨c, cs, text, first⟩ := n.startsNumber_chars
        exact ⟨c, cs ++ rest, by rw [text, List.cons_append], first⟩
      have read : Reader.number? n.chars = some (n, []) := readsBack_of_doubles doubles
      refine read_of_fits (Nat.zero_le depth) ?_
      rw [chars, value_number _ _ starts, Reader.stopsAtEnd_number? _ _ ends, read]
      rfl
  | .string s, fuel + 1, depth, rest, _, _, _, _ =>
      read_of_fits (Nat.zero_le depth) (value_string fuel depth s rest)
  | .array items, fuel + 1, 0, rest, _, _, _, _ => value_tooDeep fuel (.inl rfl) _
  | .array [], fuel + 1, depth + 1, rest, _, _, _, _ =>
      read_of_fits (Nat.succ_le_succ (Nat.zero_le depth)) (value_noItems fuel depth rest)
  | .array (v :: vs), fuel + 1, depth + 1, rest, enough, distinct, doubles, _ => by
      rw [chars, List.length_append, List.length_cons, List.length_singleton] at enough
      obtain ⟨c, cs, text, noSpace, noEnd⟩ := exists_first_itemChars v vs (']' :: rest)
      have read := items_chars v vs fuel depth rest (by omega) distinct doubles
      rw [chars, List.append_assoc, List.cons_append, List.singleton_append, text,
        value_items _ _ noSpace noEnd, ← text, read, Value.depth]
      simp only [Nat.add_le_add_iff_right]
      split <;> rfl
  | .object members, fuel + 1, 0, rest, _, _, _, _ => value_tooDeep fuel (.inr rfl) _
  | .object [], fuel + 1, depth + 1, rest, _, _, _, _ =>
      read_of_fits (Nat.succ_le_succ (Nat.zero_le depth)) (value_noMembers fuel depth rest)
  | .object ((name, v) :: members), fuel + 1, depth + 1, rest, enough, distinct, doubles, _ => by
      rw [chars, List.length_append, List.length_cons, List.length_singleton] at enough
      obtain ⟨names, distinct⟩ := distinct
      obtain ⟨cs, text⟩ := exists_first_memberChars name v members ('\x7d' :: rest)
      have read := members_chars name v members fuel depth rest (by omega) distinct doubles
      rw [chars, List.append_assoc, List.cons_append, List.singleton_append, text,
        value_members, ← text, read, Value.depth]
      simp only [Nat.add_le_add_iff_right]
      split
      · rw [Option.map_some, Ordered.ofList_of_distinct names]
      · rfl

theorem items_chars : ∀ (v : Value) (vs : List Value) (fuel depth : Nat) (rest : List Char),
    (itemChars (v :: vs)).length < fuel → allDistinct (v :: vs) → allDoublesReadBack (v :: vs) →
      Reader.items fuel depth (itemChars (v :: vs) ++ ']' :: rest) =
        if depths (v :: vs) ≤ depth then some (v :: vs, rest) else none
  | _, _, 0, _, _, enough, _, _ => by omega
  | v, [], fuel + 1, depth, rest, enough, distinct, doubles => by
      have read := value_chars v fuel depth (Nat.le_of_lt_succ enough) distinct.1 doubles.1
        (ends_cons (.inr (.inl rfl)) rest)
      rw [itemChars, depths, depths, Nat.max_zero]
      split at read
      next fits => rw [if_pos fits, items_last read]
      next tooDeep => rw [if_neg tooDeep, items_refused read]
  | v, w :: vs, fuel + 1, depth, rest, enough, distinct, doubles => by
      have text : itemChars (v :: w :: vs) = v.chars ++ ',' :: itemChars (w :: vs) := rfl
      rw [text, List.length_append, List.length_cons] at enough
      have read := value_chars v fuel depth (by omega) distinct.1 doubles.1
        (ends_cons (.inl rfl) (itemChars (w :: vs) ++ ']' :: rest))
      have more := items_chars w vs fuel depth rest (by omega) distinct.2 doubles.2
      rw [text, List.append_assoc, List.cons_append, depths]
      split at read
      next fits =>
        rw [items_more read, more]
        simp only [Nat.max_le, fits, true_and]
        split <;> rfl
      next tooDeep =>
        rw [items_refused read, if_neg fun fits => tooDeep (Nat.max_le.1 fits).1]

theorem members_chars : ∀ (name : String) (v : Value) (members : List (String × Value))
    (fuel depth : Nat) (rest : List Char), (memberChars ((name, v) :: members)).length ≤ fuel →
      allMembersDistinct ((name, v) :: members) →
        allMembersDoublesReadBack ((name, v) :: members) →
          Reader.members fuel depth (memberChars ((name, v) :: members) ++ '\x7d' :: rest) =
            if memberDepths ((name, v) :: members) ≤ depth then some ((name, v) :: members, rest)
            else none
  | name, v, members, 0, _, _, enough, _, _ => by
      obtain ⟨cs, text⟩ := exists_first_memberChars name v members []
      rw [List.append_nil] at text
      rw [text] at enough
      cases enough
  | name, v, [], fuel + 1, depth, rest, enough, distinct, doubles => by
      have text : memberChars [(name, v)] = stringChars name ++ ':' :: v.chars := rfl
      rw [text, List.length_append, List.length_cons] at enough
      have read := value_chars v fuel depth (by omega) distinct.1 doubles.1
        (ends_cons (.inr (.inr rfl)) rest)
      rw [text, List.append_assoc, List.cons_append, memberDepths, memberDepths, Nat.max_zero]
      split at read
      next fits => rw [if_pos fits, members_last name read]
      next tooDeep => rw [if_neg tooDeep, members_refused name read]
  | name, v, (next, w) :: members, fuel + 1, depth, rest, enough, distinct, doubles => by
      have text : memberChars ((name, v) :: (next, w) :: members) =
          stringChars name ++ ':' :: (v.chars ++ ',' :: memberChars ((next, w) :: members)) := by
        simp [memberChars]
      rw [text, List.length_append, List.length_cons, List.length_append, List.length_cons]
        at enough
      have read := value_chars v fuel depth (by omega) distinct.1 doubles.1
        (ends_cons (.inl rfl) (memberChars ((next, w) :: members) ++ '\x7d' :: rest))
      have more := members_chars next w members fuel depth rest (by omega) distinct.2 doubles.2
      rw [text, List.append_assoc, List.cons_append, List.append_assoc, List.cons_append,
        memberDepths]
      split at read
      next fits =>
        rw [members_more name read, more]
        simp only [Nat.max_le, fits, true_and]
        split <;> rfl
      next tooDeep =>
        rw [members_refused name read, if_neg fun fits => tooDeep (Nat.max_le.1 fits).1]

end

/-! ## Whole texts -/

/-- **The text of a value is read as that value**, unless the value is nested too deeply: then the
text is refused. -/
theorem ofTextUpTo?_text {v : Value} (distinct : v.Distinct) (doubles : v.DoublesReadBack)
    (limit : Nat) :
    ofTextUpTo? limit v.text = if v.depth ≤ limit then some v else none := by
  have fuel : v.chars.length ≤ Reader.fuelFor v.chars := by
    rw [Reader.fuelFor]
    omega
  have read := value_chars v _ limit fuel distinct doubles ends_nil
  rw [List.append_nil] at read
  rw [ofTextUpTo?, text, String.toList_ofList]
  simp only [read]
  by_cases fits : v.depth ≤ limit
  · rw [if_pos fits, if_pos fits]
    rfl
  · rw [if_neg fits, if_neg fits]

end Value

end RequestQuery.Json
