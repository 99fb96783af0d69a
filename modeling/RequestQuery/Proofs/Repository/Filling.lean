/-
# Columns that are filled in

Before a row is written some of its columns are filled in, one after the other: a column gets a text
if its value is missing, in its place if the row has it and at the end otherwise.  The effect of all
these steps can be said at once.  `supplied` takes the texts of several columns to the row that has
them wherever a value was missing, and a step adds its text to those that are there already
(`fill_supplied`), or adds nothing: a column that has got a text is not missing any more.
-/
import RequestQuery.Proofs.Ordered
import RequestQuery.Repository.Basic

namespace RequestQuery

set_option autoImplicit false

namespace Repository

/-! ## Rows with texts -/

/-- What stands in a column for which there may be a text. -/
def filledIn (text : Option String) (value : Json.Value) : Json.Value :=
  match text with
  | some text => if isMissing (some value) then .string text else value
  | none => value

/-- A row with texts in the place of missing values, and after its own columns those that it does
not have. -/
def supplied (texts : Ordered String) (row : Row) : Row :=
  (row.map fun column => (column.1, filledIn (texts.get? column.1) column.2)) ++
    (texts.filter (·.1 ∉ Ordered.names row)).map fun text => (text.1, .string text.2)

variable {texts : Ordered String} {row : Row} {column text : String}

theorem supplied_nil (row : Row) : supplied [] row = row := by
  simp [supplied, filledIn, Ordered.get?]

theorem names_supplied (texts : Ordered String) (row : Row) :
    Ordered.names (supplied texts row) =
      Ordered.names row ++ texts.names.filter (· ∉ Ordered.names row) := by
  simp [supplied, Ordered.names, List.filter_map, Function.comp_def]

theorem mem_names_supplied :
    column ∈ Ordered.names (supplied texts row) ↔
      column ∈ Ordered.names row ∨ column ∈ texts.names := by
  rw [names_supplied, List.mem_append, List.mem_filter]
  by_cases known : column ∈ Ordered.names row <;> simp [known]

theorem distinct_supplied (distinct : Ordered.Distinct row) (apart : texts.Distinct) :
    Ordered.Distinct (supplied texts row) := by
  rw [Ordered.Distinct, names_supplied, List.nodup_append]
  refine ⟨distinct, apart.filter _, ?_⟩
  rintro name known other added rfl
  simp [known] at added

theorem get?_supplied (texts : Ordered String) (row : Row) (column : String) :
    Ordered.get? (supplied texts row) column =
      match row.get? column with
      | some value => some (filledIn (texts.get? column) value)
      | none => (texts.get? column).map .string := by
  rw [supplied, Ordered.get?_append, Ordered.get?_map,
    Ordered.get?_mapNamed (fun name => filledIn (texts.get? name))]
  cases found : row.get? column with
  | some value => rfl
  | none =>
      have fresh := Ordered.get?_eq_none_iff.1 found
      rw [Ordered.get?_filter (fun name => decide (name ∉ Ordered.names row)) texts
        (by simpa using fresh)]
      rfl

/-- A column for which there is a text has a value. -/
theorem isMissing_supplied (given : ∀ entry ∈ texts, entry.2 ≠ "") :
    isMissing ((supplied texts row).get? column) =
      (isMissing (row.get? column) && decide (column ∉ texts.names)) := by
  rw [get?_supplied]
  cases found : texts.get? column with
  | none =>
      have untexted : column ∉ texts.names := Ordered.get?_eq_none_iff.1 found
      cases row.get? column <;> simp [untexted, filledIn]
  | some text =>
      have texted : column ∈ texts.names :=
        List.mem_map.2 ⟨_, Ordered.mem_of_get? found, rfl⟩
      have filled : isMissing (some (.string text)) = false := by
        simpa [isMissing] using given _ (Ordered.mem_of_get? found)
      cases row.get? column with
      | none => simp [texted, filled]
      | some value =>
          by_cases missing : isMissing (some value) = true
          · simp [texted, filledIn, missing, filled]
          · simp [texted, filledIn, missing]

/-! ## Filling in one column after the other -/

/-- Filling in one column. -/
theorem fill_eq_supplied (text : String) (distinct : Ordered.Distinct row) (column : String) :
    fill text row column = supplied [(column, text)] row := by
  unfold fill
  induction row with
  | nil => rfl
  | cons first rest ih =>
      obtain ⟨name, value⟩ := first
      obtain ⟨fresh, others⟩ := List.nodup_cons.1 distinct
      by_cases same : name = column
      · subst same
        have untouched : ∀ other ∈ rest,
            (other.1, filledIn (Ordered.get? [(name, text)] other.1) other.2) = other := by
          intro other member
          have apart : name ≠ other.1 :=
            fun same => fresh (List.mem_map.2 ⟨other, member, same.symm⟩)
          simp [Ordered.get?, apart, filledIn]
        have remaining : rest.map (fun other =>
            (other.1, filledIn (Ordered.get? [(name, text)] other.1) other.2)) = rest :=
          (List.map_congr_left untouched).trans (List.map_id' rest)
        rw [supplied, List.map_cons, remaining]
        by_cases missing : isMissing (some value) = true
        · simp [Ordered.get?, Ordered.put, Ordered.names, filledIn, missing]
        · simp [Ordered.get?, Ordered.names, filledIn, missing]
      · have later : supplied [(column, text)] ((name, value) :: rest) =
            (name, value) :: supplied [(column, text)] rest := by
          have known : column ∈ Ordered.names ((name, value) :: rest) ↔
              column ∈ Ordered.names rest := by
            simp [Ordered.names, Ne.symm same]
          simp [supplied, Ordered.get?, filledIn, known, Ne.symm same, List.filter_cons]
        rw [later, ← ih others]
        by_cases missing : isMissing (Ordered.get? rest column) = true
        · simp [Ordered.get?, Ordered.put, same, missing]
        · simp [Ordered.get?, same, missing]

/-- One more text, in a column for which there was none. -/
theorem supplied_supplied (fresh : column ∉ texts.names) (text : String) (row : Row) :
    supplied [(column, text)] (supplied texts row) = supplied (texts ++ [(column, text)]) row := by
  have placed : ∀ entry : String × Json.Value,
      filledIn (Ordered.get? [(column, text)] entry.1) (filledIn (texts.get? entry.1) entry.2) =
        filledIn ((texts ++ [(column, text)]).get? entry.1) entry.2 := by
    intro entry
    rw [Ordered.get?_append]
    by_cases same : column = entry.1
    · rw [← same, Ordered.get?_eq_none_iff.2 fresh]
      rfl
    · simp [Ordered.get?, same, filledIn]
  have untouched : ∀ entry ∈ texts.filter (·.1 ∉ Ordered.names row),
      (entry.1, filledIn (Ordered.get? [(column, text)] entry.1) (.string entry.2)) =
        (entry.1, Json.Value.string entry.2) := by
    intro entry member
    have apart : column ≠ entry.1 := fun same =>
      fresh (List.mem_map.2 ⟨entry, (List.mem_filter.1 member).1, same.symm⟩)
    simp [Ordered.get?, apart, filledIn]
  have last : column ∈ Ordered.names (supplied texts row) ↔ column ∈ Ordered.names row := by
    rw [mem_names_supplied, or_iff_left fresh]
  have added : [(column, text)].filter (·.1 ∉ Ordered.names (supplied texts row)) =
      [(column, text)].filter (·.1 ∉ Ordered.names row) := by
    refine List.filter_congr fun entry member => ?_
    rw [List.mem_singleton.1 member]
    simp only [last]
  rw [supplied, added, supplied, List.map_append, List.map_map, List.map_map, supplied,
    List.filter_append, List.map_append, ← List.append_assoc]
  refine congrArg₂ (· ++ ·) (congrArg₂ (· ++ ·) ?_ ?_) rfl
  · exact List.map_congr_left fun entry _ => congrArg (Prod.mk entry.1) (placed entry)
  · exact List.map_congr_left untouched

/-- Texts that fill their columns: none is empty, and each is for a column of its own. -/
structure Fills (texts : Ordered String) : Prop where
  given : ∀ entry ∈ texts, entry.2 ≠ ""
  apart : texts.Distinct

theorem Fills.nil : Fills [] :=
  ⟨List.forall_mem_nil _, List.nodup_nil⟩

theorem Fills.concat (fills : Fills texts) (fresh : column ∉ texts.names) (filling : text ≠ "") :
    Fills (texts ++ [(column, text)]) where
  given entry member := by
    rcases List.mem_append.1 member with old | new
    · exact fills.given entry old
    · rw [List.mem_singleton.1 new]
      exact filling
  apart := by
    rw [← Ordered.put_of_not_mem _ fresh]
    exact fills.apart.put _ _

/-- **A step of filling in** adds its text to those that are there already, unless there is one for
its column. -/
theorem fill_supplied (fills : Fills texts) (distinct : Ordered.Distinct row)
    (text column : String) :
    fill text (supplied texts row) column =
      supplied (if column ∈ texts.names then texts else texts ++ [(column, text)]) row := by
  by_cases taken : column ∈ texts.names
  · rw [if_pos taken, fill, isMissing_supplied fills.given]
    simp [taken]
  · rw [if_neg taken, fill_eq_supplied text (distinct_supplied distinct fills.apart),
      supplied_supplied taken]

/-- **Columns that are filled in one after the other** get their texts in this order. -/
theorem foldl_fill {columns : List String} {textFor : String → String}
    (filling : ∀ column ∈ columns, textFor column ≠ "") (different : columns.Nodup)
    (fills : Fills texts) (distinct : Ordered.Distinct row) :
    columns.foldl (fun row column => fill (textFor column) row column) (supplied texts row) =
      supplied (texts ++ (columns.filter (· ∉ texts.names)).map fun column =>
        (column, textFor column)) row := by
  induction columns generalizing texts with
  | nil => rw [List.foldl_nil, List.filter_nil, List.map_nil, List.append_nil]
  | cons column columns ih =>
      obtain ⟨fresh, others⟩ := List.nodup_cons.1 different
      obtain ⟨first, filling⟩ := List.forall_mem_cons.1 filling
      rw [List.foldl_cons, fill_supplied fills distinct]
      by_cases taken : column ∈ texts.names
      · rw [if_pos taken, ih filling others fills, List.filter_cons_of_neg (by simpa)]
      · have more : (texts ++ [(column, textFor column)]).names = texts.names ++ [column] := by
          simp [Ordered.names]
        -- The other columns are different ones, so the new text changes nothing for them.
        have further : columns.filter (· ∉ texts.names ++ [column]) =
            columns.filter (· ∉ texts.names) := by
          refine List.filter_congr fun other member => ?_
          have apart : other ≠ column := fun same => fresh (same ▸ member)
          simp [apart]
        rw [if_neg taken, ih filling others (fills.concat taken first), more, further,
          List.append_assoc, List.filter_cons_of_pos (by simpa)]
        rfl

end Repository

end RequestQuery
