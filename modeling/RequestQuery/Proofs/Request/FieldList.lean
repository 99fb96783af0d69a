/-
# The two forms of a field list

A list of fields is given as one text with commas or as an array.  The text has one reading: the
pieces between its commas (`Cut.eq_splitOn`), trimmed, without those in which nothing is left.  The
lists that are read from texts are the proper ones, those that the form can tell apart.  Written
with commas, with blanks anywhere around them, or as an array, a proper list is read as itself
(`ofJson?_joined`, `ofJson?_array`), so the two forms mean the same.
-/
import Mathlib.Data.List.Forall2
import RequestQuery.Proofs.Request.Canonical
import RequestQuery.Proofs.Text.Splitting

namespace RequestQuery

set_option autoImplicit false

namespace Text

/-! ## Blanks around a text -/

def AreBlank (cs : List Char) : Prop :=
  ∀ c ∈ cs, isBlank c = true

instance (cs : List Char) : Decidable (AreBlank cs) :=
  decidable_of_iff (cs.all isBlank = true) List.all_eq_true

/-- Blanks at both ends are what trimming takes off. -/
theorem trimChars_append {before cs after : List Char} (front : AreBlank before)
    (back : AreBlank after) (trimmed : Trimmed cs) : trimChars (before ++ cs ++ after) = cs := by
  have reversed : AreBlank after.reverse := fun c member => back c (List.mem_reverse.1 member)
  cases cs with
  | nil =>
      have all : AreBlank (before ++ after) := List.forall_mem_append.2 ⟨front, back⟩
      rw [List.append_nil, trimChars, List.dropWhile_eq_nil_iff.2 all]
      rfl
  | cons c cs =>
      have visible : (c :: cs ++ after).dropWhile isBlank = c :: cs ++ after :=
        List.dropWhile_cons_of_neg (Bool.eq_false_iff.1 (trimmed.first c rfl))
      have ends : trimChars (c :: cs) = c :: cs := trimChars_of_trimmed trimmed
      rw [trimChars, List.dropWhile_cons_of_neg (Bool.eq_false_iff.1 (trimmed.first c rfl))] at ends
      rw [trimChars, List.append_assoc, List.dropWhile_append_of_pos front, visible,
        List.reverse_append, List.dropWhile_append_of_pos reversed, ends]

theorem trimChars_eq_nil_iff {cs : List Char} : trimChars cs = [] ↔ AreBlank cs := by
  constructor
  · intro nothing
    by_contra visible
    have some : cs.dropWhile isBlank ≠ [] := fun none => visible (List.dropWhile_eq_nil_iff.1 none)
    have first := List.head_dropWhile_not isBlank some
    rw [trimChars_eq, List.rdropWhile_eq_nil_iff] at nothing
    rw [nothing _ (List.head_mem some)] at first
    exact Bool.false_ne_true first.symm
  · intro blank
    rw [trimChars, List.dropWhile_eq_nil_iff.2 blank]
    rfl

theorem trim_eq_empty_iff {s : String} : trim s = "" ↔ AreBlank s.toList := by
  rw [trim, ← trimChars_eq_nil_iff, String.ofList_eq_empty_iff]

theorem not_mem_trim {c : Char} {s : String} (absent : c ∉ s.toList) : c ∉ (trim s).toList := by
  rw [trim, String.toList_ofList, trimChars]
  intro member
  have inner := (List.dropWhile_suffix isBlank).subset (List.mem_reverse.1 member)
  exact absent ((List.dropWhile_suffix isBlank).subset (List.mem_reverse.1 inner))

end Text

namespace Request.FieldList

open Text (AreBlank Trimmed)

/-! ## The reading of a text -/

/-- The pieces between the commas: the longest parts of a text that hold none. -/
structure Cut (s : String) (pieces : List String) : Prop where
  nonempty : pieces ≠ []
  noComma : ∀ piece ∈ pieces, ',' ∉ piece.toList
  joined : String.intercalate "," pieces = s

theorem Cut.eq_splitOn {s : String} {pieces : List String} (cut : Cut s pieces) :
    pieces = Text.splitOn ',' s :=
  (Text.splitOn_eq_iff.2 ⟨cut.nonempty, cut.noComma, cut.joined⟩).symm

theorem cut_splitOn (s : String) : Cut s (Text.splitOn ',' s) where
  nonempty := Text.splitOn_ne_nil ',' s
  noComma := fun _ => Text.not_mem_of_mem_splitOn
  joined := Text.intercalate_splitOn ',' s

/-- What is left of the pieces in which there is something other than blanks. -/
def words (pieces : List String) : List String :=
  (pieces.filter fun piece => !piece.toList.all Text.isBlank).map Text.trim

theorem segments_of_cut {s : String} {pieces : List String} (cut : Cut s pieces) :
    segments s = words pieces := by
  rw [segments, ← cut.eq_splitOn, words, List.filter_map]
  congr 1
  refine List.filter_congr fun piece _ => ?_
  rw [Function.comp_apply, Bool.eq_iff_iff, decide_eq_true_iff, ne_eq, Text.trim_eq_empty_iff,
    Bool.not_eq_true', ← Bool.not_eq_true, List.all_eq_true]
  rfl

/-! ## Lists that both forms can give -/

/-- A name that a text with commas can give. -/
structure IsWord (field : String) : Prop where
  nonempty : field ≠ ""
  trimmed : Trimmed field.toList
  noComma : ',' ∉ field.toList

/-- A name among blanks. -/
def Padded (piece field : String) : Prop :=
  ∃ before after, AreBlank before ∧ AreBlank after ∧
    piece.toList = before ++ field.toList ++ after

theorem Padded.trim_eq {piece field : String} (padded : Padded piece field)
    (word : IsWord field) : Text.trim piece = field := by
  obtain ⟨before, after, front, back, text⟩ := padded
  rw [Text.trim, text, Text.trimChars_append front back word.trimmed, String.ofList_toList]

theorem Padded.noComma {piece field : String} (padded : Padded piece field)
    (word : IsWord field) : ',' ∉ piece.toList := by
  obtain ⟨before, after, front, back, text⟩ := padded
  have visible : Text.isBlank ',' ≠ true := by decide
  rw [text, List.mem_append, List.mem_append]
  rintro ((inFront | inside) | behind)
  · exact visible (front _ inFront)
  · exact word.noComma inside
  · exact visible (back _ behind)

theorem isWord_of_mem_segments {s field : String} (member : field ∈ segments s) :
    IsWord field := by
  obtain ⟨trimmed, visible⟩ := List.mem_filter.1 member
  obtain ⟨piece, inText, rfl⟩ := List.mem_map.1 trimmed
  exact ⟨of_decide_eq_true visible, Text.trimmed_trim piece,
    Text.not_mem_trim ((cut_splitOn s).noComma piece inText)⟩

theorem nonEmpty?_eq_some_iff {fields list : List String} :
    nonEmpty? fields = some list ↔ fields = list ∧ fields ≠ [] := by
  cases fields <;> simp [nonEmpty?]

theorem trim_padded {fields padded : List String} (pads : List.Forall₂ Padded padded fields)
    (each : ∀ field ∈ fields, IsWord field) :
    padded.map Text.trim = fields ∧ ∀ piece ∈ padded, ',' ∉ piece.toList := by
  induction pads with
  | nil => exact ⟨rfl, nofun⟩
  | cons pad _ ih =>
      obtain ⟨word, others⟩ := List.forall_mem_cons.1 each
      obtain ⟨trimmed, noCommas⟩ := ih others
      exact ⟨congrArg₂ List.cons (pad.trim_eq word) trimmed,
        List.forall_mem_cons.2 ⟨pad.noComma word, noCommas⟩⟩

/-- Names with commas between them, and blanks anywhere around those, are read as the names. -/
theorem ofJson?_joined {fields padded : List String} (nonempty : fields ≠ [])
    (each : ∀ field ∈ fields, IsWord field) (pads : List.Forall₂ Padded padded fields) :
    ofJson? (.string (String.intercalate "," padded)) = some fields := by
  obtain ⟨trimmed, noCommas⟩ := trim_padded pads each
  have cut : Cut (String.intercalate "," padded) padded := by
    refine ⟨?_, noCommas, rfl⟩
    rintro rfl
    exact nonempty trimmed.symm
  have all : fields.filter (· ≠ "") = fields :=
    List.filter_eq_self.2 fun field member => decide_eq_true (each field member).nonempty
  rw [ofJson?, segments, ← cut.eq_splitOn, trimmed, all, nonEmpty?_eq_some_iff.2 ⟨rfl, nonempty⟩]

theorem ofJson?_array {fields : List String} (nonempty : fields ≠ []) :
    ofJson? (.array (fields.map .string)) = some fields := by
  have again := ofJson?_toJson_nonEmpty? fields
  rwa [nonEmpty?_eq_some_iff.2 ⟨rfl, nonempty⟩] at again

/-- The lists of a text are those that have a name and only names that a text can give. -/
theorem exists_text_iff {fields : List String} :
    (∃ s, ofJson? (.string s) = some fields) ↔ fields ≠ [] ∧ ∀ field ∈ fields, IsWord field := by
  constructor
  · rintro ⟨s, read⟩
    obtain ⟨rfl, nonempty⟩ := nonEmpty?_eq_some_iff.1 read
    exact ⟨nonempty, fun field member => isWord_of_mem_segments member⟩
  · rintro ⟨nonempty, each⟩
    have unpadded : List.Forall₂ Padded fields fields :=
      List.forall₂_same.2 fun field _ => ⟨[], [], nofun, nofun, (List.append_nil _).symm⟩
    exact ⟨_, ofJson?_joined nonempty each unpadded⟩

/-! ## Arrays -/

/-- The name that an item of an array stands for: a text is a name, and a number or a boolean has
that of its JSON text. -/
def word? : Json.Value → Option String
  | .string s => some s
  | .null | .array _ | .object _ => none
  | scalar => some scalar.text

theorem itemText?_eq (item : Json.Value) : itemText? item = word? item := by
  cases item with
  | bool b => cases b <;> rfl
  | _ => rfl

/-- **The two forms of a field list agree.**  A text is cut at its commas in one way, and its list
has what is left of the pieces that are not blank.  The lists that texts give are told by their
names; each of them is also the list of those names with commas and any blanks between them, and of
the array of those names.  Of any array the names are taken in order and the rest is left out.  A
list without names is none. -/
theorem forms_agree :
    (∀ s, ∃! pieces, Cut s pieces) ∧
    (∀ s pieces, Cut s pieces →
      ofJson? (.string s) = if words pieces = [] then none else some (words pieces)) ∧
    (∀ fields, (∃ s, ofJson? (.string s) = some fields) ↔
      fields ≠ [] ∧ ∀ field ∈ fields, IsWord field) ∧
    (∀ fields, (fields ≠ [] ∧ ∀ field ∈ fields, IsWord field) →
      ofJson? (.array (fields.map .string)) = some fields ∧
      ∀ padded, List.Forall₂ Padded padded fields →
        ofJson? (.string (String.intercalate "," padded)) = some fields) ∧
    ∀ items, ofJson? (.array items) =
      if items.filterMap word? = [] then none else some (items.filterMap word?) := by
  have listed : ∀ fields, nonEmpty? fields = if fields = [] then none else some fields := by
    intro fields
    cases fields <;> rfl
  refine ⟨fun s => ⟨_, cut_splitOn s, fun _ => Cut.eq_splitOn⟩, ?text, fun _ => exists_text_iff,
    ?forms, ?array⟩
  case text =>
    intro s pieces cut
    rw [ofJson?, segments_of_cut cut, listed]
  case forms =>
    rintro fields ⟨nonempty, each⟩
    exact ⟨ofJson?_array nonempty, fun padded pads => ofJson?_joined nonempty each pads⟩
  case array =>
    intro items
    rw [ofJson?, funext itemText?_eq, listed]

/-- A text with blanks that are not ASCII, an empty piece and a blank one, and the list that is read
from it written once more with other blanks. -/
theorem forms_agree_id_name :
    let pieces := [" id", "", "\u3000name\u00A0", "\t"]
    let padded := ["id\u2003", " name"]
    Cut " id,,\u3000name\u00A0,\t" pieces ∧
      ofJson? (.string " id,,\u3000name\u00A0,\t") = some ["id", "name"] ∧
      List.Forall₂ Padded padded ["id", "name"] ∧
      ofJson? (.string "id\u2003, name") = some ["id", "name"] := by
  intro pieces padded
  obtain ⟨_, text, lists, forms, _⟩ := forms_agree
  have cut : Cut " id,,\u3000name\u00A0,\t" pieces := ⟨nofun, by decide, by decide +kernel⟩
  have left : words pieces = ["id", "name"] := by decide +kernel
  have read : ofJson? (.string " id,,\u3000name\u00A0,\t") = some ["id", "name"] := by
    rw [text _ pieces cut, left, if_neg nofun]
  have pads : List.Forall₂ Padded padded ["id", "name"] :=
    .cons ⟨[], ['\u2003'], nofun, by decide +kernel, rfl⟩
      (.cons ⟨[' '], [], by decide +kernel, nofun, rfl⟩ .nil)
  exact ⟨cut, read, pads, (forms _ ((lists _).1 ⟨_, read⟩)).2 padded pads⟩

end Request.FieldList

end RequestQuery
