/-
# What the creation of a record says and hears

A new row is completed, inserted, and read back.  Its completion has one normal form (`storedRow`):
the columns that came with it in their order, and after them those that it lacks.  The row is read
back by its identifier, as it was bound; only where the store counts its records itself and the row
brings no key, the number that the store gave stands for it (`given?_storedRow_eq_none_iff`).  So
there is always something to look for, and `CreateRun` lists the ways a creation can go.
-/
import RequestQuery.Proofs.Plan.Values
import RequestQuery.Proofs.Repository.Filling
import RequestQuery.Proofs.Repository.Steps

namespace RequestQuery

set_option autoImplicit false

/-! ## Generated columns -/

namespace Entity

theorem generatedColumns_eq (entity : Entity) :
    entity.generatedColumns =
      ((if entity.keyType = .uuid then [entity.primaryKey] else []) ++
        entity.uuidColumn.toList).eraseDups := by
  have single : ∀ column : String, [column].eraseDups = [column] :=
    fun column => eraseDups_of_nodup (List.nodup_singleton column)
  unfold generatedColumns
  cases entity.uuidColumn with
  | none => by_cases made : entity.keyType = .uuid <;> simp [made, single]
  | some column =>
      by_cases made : entity.keyType = .uuid
      · rw [if_pos made, Option.toList_some,
          eraseDups_append_of_nodup (List.nodup_singleton _)]
        by_cases same : column = entity.primaryKey
        · simp [same, List.removeAll]
        · simp [same, List.removeAll, single]
      · simp [made, single]

theorem nodup_generatedColumns (entity : Entity) : entity.generatedColumns.Nodup := by
  rw [generatedColumns_eq]
  exact nodup_eraseDups _

theorem mem_generatedColumns_iff {entity : Entity} {column : String} :
    column ∈ entity.generatedColumns ↔
      (entity.keyType = .uuid ∧ column = entity.primaryKey) ∨ entity.uuidColumn = some column := by
  rw [generatedColumns_eq, List.mem_eraseDups, List.mem_append, Option.mem_toList]
  by_cases made : entity.keyType = .uuid <;> simp [made]

/-- The columns for the times of a new record. -/
def timeColumns (entity : Entity) : List String :=
  if entity.timestamps then [createdAt, updatedAt] else []

theorem nodup_timeColumns (entity : Entity) : entity.timeColumns.Nodup := by
  unfold timeColumns
  split
  · decide
  · exact List.nodup_nil

end Entity

/-- A supply never gives an empty text. -/
structure Supply.Gives (supply : Supply) : Prop where
  identifier : ∀ column, supply.identifier column ≠ ""
  now : supply.now ≠ ""

namespace Repository

theorem given?_eq_none_iff {row : Row} {column : String} :
    given? row column = none ↔ isMissing (row.get? column) = true := by
  unfold given?
  cases row.get? column with
  | none => simp [isMissing]
  | some value => by_cases missing : isMissing (some value) = true <;> simp [missing]

/-! ## The row that is stored -/

/-- The texts for the columns that a new row may lack: identifiers, and the time in those that are
no identifiers. -/
def generatedTexts (entity : Entity) (supply : Supply) : Ordered String :=
  (entity.generatedColumns.map fun column => (column, supply.identifier column)) ++
    (entity.timeColumns.filter (· ∉ entity.generatedColumns)).map fun column =>
      (column, supply.now)

/-- The row that a creation stores. -/
def storedRow (entity : Entity) (supply : Supply) (row : Row) : Row :=
  supplied (generatedTexts entity supply) row

section Stored

variable {entity : Entity} {supply : Supply} {row : Row}

theorem mem_names_generatedTexts {column : String} :
    column ∈ (generatedTexts entity supply).names ↔
      column ∈ entity.generatedColumns ∨ column ∈ entity.timeColumns := by
  simp only [generatedTexts, Ordered.names, List.map_append, List.map_map, List.mem_append]
  by_cases made : column ∈ entity.generatedColumns <;> simp [made]

theorem names_identifiers (entity : Entity) (supply : Supply) :
    Ordered.names
        (entity.generatedColumns.map fun column => (column, supply.identifier column)) =
      entity.generatedColumns := by
  simp [Ordered.names, Function.comp_def]

theorem fills_identifiers (entity : Entity) (gives : supply.Gives) :
    Fills (entity.generatedColumns.map fun column => (column, supply.identifier column)) where
  given entry member := by
    obtain ⟨column, _, rfl⟩ := List.mem_map.1 member
    exact gives.identifier column
  apart := by
    rw [Ordered.Distinct, names_identifiers]
    exact entity.nodup_generatedColumns

theorem given_generatedTexts (gives : supply.Gives) :
    ∀ entry ∈ generatedTexts entity supply, entry.2 ≠ "" := by
  intro entry member
  rcases List.mem_append.1 member with made | timed
  · exact (fills_identifiers entity gives).given entry made
  · obtain ⟨column, _, rfl⟩ := List.mem_map.1 timed
    exact gives.now

/-- **The completion of a new row at once.** -/
theorem completed_eq_storedRow (gives : supply.Gives) (distinct : Ordered.Distinct row) :
    completed entity supply row = storedRow entity supply row := by
  have identified : entity.generatedColumns.foldl
      (fun row column => fill (supply.identifier column) row column) row =
        supplied (entity.generatedColumns.map fun column => (column, supply.identifier column))
          row := by
    have filled := foldl_fill (fun column _ => gives.identifier column)
      entity.nodup_generatedColumns .nil distinct
    simpa [supplied_nil, Ordered.names] using filled
  have timed := foldl_fill (fun _ _ => gives.now) entity.nodup_timeColumns
    (fills_identifiers entity gives) distinct
  rw [names_identifiers] at timed
  rw [storedRow, generatedTexts, ← timed, completed, identified, Entity.timeColumns]
  split <;> rfl

theorem isMissing_storedRow (gives : supply.Gives) {column : String} :
    isMissing ((storedRow entity supply row).get? column) =
      (isMissing (row.get? column) &&
        decide (column ∉ entity.generatedColumns ∧ column ∉ entity.timeColumns)) := by
  rw [storedRow, isMissing_supplied (given_generatedTexts gives)]
  simp only [mem_names_generatedTexts, not_or]

/-- A stored row is without identifier just where the store counts its records, there is no other
identifier, and the row came without a key, whose column is not one for the time either. -/
theorem given?_storedRow_eq_none_iff (gives : supply.Gives) :
    given? (storedRow entity supply row) entity.identifier = none ↔
      entity.keyType = .integer ∧ entity.uuidColumn = none ∧
        isMissing (row.get? entity.primaryKey) = true ∧
          entity.primaryKey ∉ entity.timeColumns := by
  rw [given?_eq_none_iff, isMissing_storedRow gives, Bool.and_eq_true, decide_eq_true_eq,
    Entity.mem_generatedColumns_iff, Entity.identifier]
  cases other : entity.uuidColumn with
  | some column => simp
  | none =>
      cases entity.keyType <;> simp

/-! ## The two statements -/

section Statements

variable (entity : Entity) (supply : Supply) (row : Row) (number : Int64)

def insertStatement : Sql.Statement :=
  entity.insert (storedRow entity supply row)

/-- What a stored row is identified by, with the number that the store gave to it. -/
def storedKey : Parameter :=
  (given? (storedRow entity supply row) entity.identifier).getD (.int number)

def readBackStatement : Sql.Statement :=
  entity.lookup entity.identifier (storedKey entity supply row number)

end Statements

theorem mem_entries_of_given? {row : Row} {column : String} {value : Parameter}
    (given : given? row column = some value) :
    (column, value) ∈ Entity.entries row ∧ value.isNull = false := by
  unfold given? at given
  split at given
  next => cases given
  next present =>
      obtain ⟨stored, found, rfl⟩ := Option.map_eq_some_iff.1 given
      refine ⟨List.mem_map.2 ⟨_, Ordered.mem_of_get? found, rfl⟩, ?_⟩
      cases stored with
      | null => exact absurd (congrArg isMissing found) present
      | number n =>
          change (Parameter.ofNumber n).isNull = false
          unfold Parameter.ofNumber
          split <;> rfl
      | _ => rfl

theorem readBackStatement_of_identified {value : Parameter}
    (identified : given? (storedRow entity supply row) entity.identifier = some value)
    (number : Int64) :
    readBackStatement entity supply row number = entity.lookup entity.identifier value ∧
      (readBackStatement entity supply row number).parameters = [value] := by
  have same : readBackStatement entity supply row number =
      entity.lookup entity.identifier value := by
    rw [readBackStatement, storedKey, identified, Option.getD_some]
  refine ⟨same, ?_⟩
  rw [same, entity.parameters_lookup, Entity.addressValues, (mem_entries_of_given? identified).2]
  rfl

theorem readBackStatement_of_counted (gives : supply.Gives)
    (counted : given? (storedRow entity supply row) entity.identifier = none) (number : Int64) :
    readBackStatement entity supply row number = entity.lookup entity.primaryKey (.int number) := by
  obtain ⟨_, alone, _, _⟩ := (given?_storedRow_eq_none_iff gives).1 counted
  rw [readBackStatement, storedKey, counted, Option.getD_none, Entity.identifier, alone,
    Option.getD_none]

/-- **There is always something to look for.** -/
theorem insertedKey_storedRow (gives : supply.Gives) (number : Int64) :
    insertedKey entity (storedRow entity supply row) number =
      .ok (entity.identifier, storedKey entity supply row number) := by
  unfold insertedKey storedKey
  cases found : given? (storedRow entity supply row) entity.identifier with
  | some value => rfl
  | none =>
      obtain ⟨counts, alone, _, _⟩ := (given?_storedRow_eq_none_iff gives).1 found
      have key : entity.identifier = entity.primaryKey := by
        rw [Entity.identifier, alone, Option.getD_none]
      rw [← key, found, counts]
      rfl

/-! ## Runs -/

/-- The failure of a creation whose record is not there. -/
def unread (entity : Entity) : Failure.Cause :=
  .internal ("inserted " ++ entity.name ++ " record could not be read back")

/-- The ways a creation can go. -/
inductive CreateRun (entity : Entity) (supply : Supply) (row : Row) :
    List Exchange → Outcome Record → Prop where
  | insertFailed (failure : Failure) :
      CreateRun entity supply row [.insert (insertStatement entity supply row) (.error failure)]
        (.error failure)
  | readFailed (number : Int64) (failure : Failure) :
      CreateRun entity supply row
        [.insert (insertStatement entity supply row) (.ok number),
         .query (readBackStatement entity supply row number) (.error failure)] (.error failure)
  | unread (number : Int64) :
      CreateRun entity supply row
        [.insert (insertStatement entity supply row) (.ok number),
         .query (readBackStatement entity supply row number) (.ok [])]
        (.error (.of (unread entity)))
  | stored (number : Int64) (first : Row) (others : List Row) :
      CreateRun entity supply row
        [.insert (insertStatement entity supply row) (.ok number),
         .query (readBackStatement entity supply row number) (.ok (first :: others))]
        (.ok (.ofRow first))

/-- A creation is an insertion and a lookup. -/
theorem create_eq {repository : Repository} (gives : supply.Gives)
    (distinct : Ordered.Distinct row) :
    repository.create supply row =
      Session.rowNumber (insertStatement repository.entity supply row) >>= fun number =>
        first? repository.entity repository.entity.identifier
          (storedKey repository.entity supply row number) >>=
            Session.found (unread repository.entity) := by
  change (Session.rowNumber (repository.entity.insert (completed repository.entity supply row)) >>=
    fun number => Session.ofOutcome (insertedKey repository.entity
      (completed repository.entity supply row) number) >>= fun key =>
        first? repository.entity key.1 key.2 >>= Session.found (unread repository.entity)) = _
  rw [completed_eq_storedRow gives distinct]
  refine congrArg (Session.rowNumber _ >>= ·) (funext fun number => ?_)
  rw [insertedKey_storedRow gives]
  rfl

/-- **The runs of a creation** are those that are listed. -/
theorem runs_create_iff {repository : Repository} (gives : supply.Gives)
    (distinct : Ordered.Distinct row) {log : List Exchange} {result : Outcome Record} :
    (repository.create supply row).Runs log result ↔
      CreateRun repository.entity supply row log result := by
  rw [create_eq gives distinct, runs_rowNumber_iff]
  simp only [runs_first_iff]
  constructor
  · rintro (⟨failure, rfl, rfl⟩ | ⟨number, rest, rfl, ⟨failure, rfl, rfl⟩ | ⟨rfl, rfl⟩ |
      ⟨first, others, rfl, rfl⟩⟩)
    · exact .insertFailed failure
    · exact .readFailed number failure
    · exact .unread number
    · exact .stored number first others
  · intro run
    cases run with
    | insertFailed failure => exact .inl ⟨failure, rfl, rfl⟩
    | readFailed number failure => exact .inr ⟨number, _, rfl, .inl ⟨failure, rfl, rfl⟩⟩
    | unread number => exact .inr ⟨number, _, rfl, .inr (.inl ⟨rfl, rfl⟩)⟩
    | stored number first others =>
        exact .inr ⟨number, _, rfl, .inr (.inr ⟨first, others, rfl, rfl⟩)⟩

end Stored

/-- **A creation stores what it was given and what was missing, and reads that back.**  Whatever the
store replies, the insertion binds the values of the stored row in order; if it succeeds, one lookup
follows, by the identifier as it was bound, or by the number of the new row where the store counts
its records and the row brings no key.  The result is the first row that comes back. -/
theorem create_stores {supply : Supply} (gives : supply.Gives) {row : Row}
    (distinct : Ordered.Distinct row) (repository : Repository) (silence : Reply)
    (replies : List Reply) :
    let entity := repository.entity
    let create := repository.create supply row
    let stored := supplied (generatedTexts entity supply) row
    CreateRun entity supply row (create.exchanges silence replies)
        (create.play silence replies).result ∧
      (create.exchanges silence replies).map Exchange.sent = (create.play silence replies).sent ∧
      (∀ (position : Nat) (exchange : Exchange),
        (create.exchanges silence replies)[position]? = some exchange →
          exchange.AnsweredBy (replies[position]?.getD silence)) ∧
      entity.generatedColumns =
        ((if entity.keyType = .uuid then [entity.primaryKey] else []) ++
          entity.uuidColumn.toList).eraseDups ∧
      (insertStatement entity supply row).parameters =
        stored.map (fun column => Parameter.ofJson column.2) ∧
      (∀ value, given? stored entity.identifier = some value →
        (entity.identifier, value) ∈ Entity.entries stored ∧
          ∀ number, readBackStatement entity supply row number =
              entity.lookup entity.identifier value ∧
            (readBackStatement entity supply row number).parameters = [value]) ∧
      (given? stored entity.identifier = none ↔
        entity.keyType = .integer ∧ entity.uuidColumn = none ∧
          isMissing (row.get? entity.primaryKey) = true ∧
            entity.primaryKey ∉ entity.timeColumns) ∧
      (given? stored entity.identifier = none → ∀ number,
        readBackStatement entity supply row number =
          entity.lookup entity.primaryKey (.int number)) := by
  intro entity create stored
  have run := Session.runs_exchanges silence create replies
  exact ⟨(runs_create_iff gives distinct).1 run, Session.sent_exchanges silence create replies,
    fun _ _ => Session.answeredBy_of_exchanges silence create replies,
    entity.generatedColumns_eq, entity.parameters_insert stored,
    fun _ identified => ⟨(mem_entries_of_given? identified).1,
      readBackStatement_of_identified identified⟩,
    given?_storedRow_eq_none_iff gives, readBackStatement_of_counted gives⟩

/-- A post whose identifier is null gets one in its place, and the times at the end. -/
theorem create_stores_post :
    let entity : Entity :=
      { name := "Post", table := "posts", uuidColumn := some "uuid", timestamps := true }
    let repository : Repository := { catalog := Catalog.ofList [entity], entity }
    let supply : Supply := { identifier := fun _ => "u", now := "t" }
    let create := repository.create supply [("uuid", .null), ("title", .string "a")]
    let replies : List Reply := [{ rowNumber := 7 }, { rows := [[("id", .ofInt64 7)]] }]
    supply.Gives ∧ Ordered.Distinct [("uuid", Json.Value.null), ("title", .string "a")] ∧
      (create.play {} replies).sent =
        [⟨.insert, .insert "posts"
          [("uuid", .text "u"), ("title", .text "a"), ("created_at", .text "t"),
            ("updated_at", .text "t")]⟩,
         ⟨.query, entity.lookup "uuid" (.text "u")⟩] ∧
      (create.play {} replies).result = .ok (.ofRow [("id", .ofInt64 7)]) := by
  intro entity repository supply create replies
  have identifies : "u" ≠ "" := by decide
  have tells : "t" ≠ "" := by decide
  have gives : supply.Gives := ⟨fun _ => identifies, tells⟩
  have distinct : Ordered.Distinct [("uuid", Json.Value.null), ("title", .string "a")] :=
    List.nodup_cons.2 ⟨by decide, List.nodup_singleton _⟩
  obtain ⟨run, sent, answered, _⟩ := create_stores gives distinct repository {} replies
  refine ⟨gives, distinct, ?_⟩
  rw [← sent]
  generalize create.exchanges {} replies = log at run answered
  generalize (create.play {} replies).result = result at run
  cases run with
  | insertFailed failure => cases answered 0 _ rfl
  | readFailed number failure => cases answered 1 _ rfl
  | unread number => cases answered 1 _ rfl
  | stored number first others =>
      cases answered 1 _ rfl
      exact ⟨rfl, rfl⟩

end Repository

end RequestQuery
