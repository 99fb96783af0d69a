/-
# What an update says and hears

An update looks a record up, writes it and looks it up again, and it may end at each of the three
answers.  `UpdateRun` lists the ways it can go, with what was said, what came back and the result;
`runs_update_iff` is the only place where the operation itself is opened.
-/
import RequestQuery.Proofs.Repository.Steps

namespace RequestQuery.Repository

set_option autoImplicit false

/-- The row that an update writes. -/
def written (entity : Entity) (supply : Supply) (row : Row) : Row :=
  if entity.timestamps then fill supply.now row Entity.updatedAt else row

/-- The identifier that a record has after a row was written, if it had the given one before. -/
def rereadKey (entity : Entity) (id : Parameter) (row : Row) : Parameter :=
  (given? row entity.identifier).getD id

/-! ## The three statements -/

section Statements

variable (entity : Entity) (supply : Supply) (id : Parameter) (row : Row)

def findStatement : Sql.Statement :=
  entity.lookup entity.identifier id

def writeStatement : Sql.Statement :=
  entity.update (written entity supply row) entity.identifier id

def rereadStatement : Sql.Statement :=
  entity.lookup entity.identifier (rereadKey entity id (written entity supply row))

end Statements

/-! ## Runs -/

/-- The ways an update can go. -/
inductive UpdateRun (entity : Entity) (supply : Supply) (id : Parameter) (row : Row) :
    List Exchange → Outcome Record → Prop where
  | findFailed (failure : Failure) :
      UpdateRun entity supply id row [.query (findStatement entity id) (.error failure)]
        (.error failure)
  | missing :
      UpdateRun entity supply id row [.query (findStatement entity id) (.ok [])]
        (.error (.of (notFound entity)))
  /-- There is nothing to write. -/
  | unchanged (empty : row.isEmpty = true) (current : Row) (others : List Row) :
      UpdateRun entity supply id row
        [.query (findStatement entity id) (.ok (current :: others))] (.ok (.ofRow current))
  | writeFailed (given : row.isEmpty = false) (current : Row) (others : List Row)
      (failure : Failure) :
      UpdateRun entity supply id row
        [.query (findStatement entity id) (.ok (current :: others)),
         .execute (writeStatement entity supply id row) (.error failure)] (.error failure)
  /-- The record is gone since it was looked up. -/
  | unreached (given : row.isEmpty = false) (current : Row) (others : List Row) :
      UpdateRun entity supply id row
        [.query (findStatement entity id) (.ok (current :: others)),
         .execute (writeStatement entity supply id row) (.ok 0)]
        (.error (.of (notFound entity)))
  | rereadFailed (given : row.isEmpty = false) (current : Row) (others : List Row) {count : Nat}
      (reached : 0 < count) (failure : Failure) :
      UpdateRun entity supply id row
        [.query (findStatement entity id) (.ok (current :: others)),
         .execute (writeStatement entity supply id row) (.ok count),
         .query (rereadStatement entity supply id row) (.error failure)] (.error failure)
  /-- The record was written and is not found any more. -/
  | lost (given : row.isEmpty = false) (current : Row) (others : List Row) {count : Nat}
      (reached : 0 < count) :
      UpdateRun entity supply id row
        [.query (findStatement entity id) (.ok (current :: others)),
         .execute (writeStatement entity supply id row) (.ok count),
         .query (rereadStatement entity supply id row) (.ok [])]
        (.error (.of (notFound entity)))
  | reread (given : row.isEmpty = false) (current : Row) (others : List Row) {count : Nat}
      (reached : 0 < count) (stored : Row) (more : List Row) :
      UpdateRun entity supply id row
        [.query (findStatement entity id) (.ok (current :: others)),
         .execute (writeStatement entity supply id row) (.ok count),
         .query (rereadStatement entity supply id row) (.ok (stored :: more))]
        (.ok (.ofRow stored))

/-! ## All runs -/

/-- **The runs of an update** are those that are listed. -/
theorem runs_update_iff {repository : Repository} {supply : Supply} {id : Parameter} {row : Row}
    {log : List Exchange} {result : Outcome Record} :
    (repository.update supply id row).Runs log result ↔
      UpdateRun repository.entity supply id row log result := by
  unfold update
  rw [runs_lookup_iff]
  by_cases empty : row.isEmpty = true
  · simp only [if_pos empty]
    constructor
    · rintro (⟨failure, rfl, rfl⟩ | ⟨rfl, rfl⟩ | ⟨current, others, rest, rfl, after⟩)
      · exact .findFailed failure
      · exact .missing
      · obtain ⟨rfl, rfl⟩ := Session.Runs.of_pure after
        exact .unchanged empty current others
    · intro run
      cases run with
      | findFailed failure => exact .inl ⟨failure, rfl, rfl⟩
      | missing => exact .inr (.inl ⟨rfl, rfl⟩)
      | unchanged _ current others => exact .inr (.inr ⟨current, others, [], rfl, .done _⟩)
      | writeFailed given | unreached given | rereadFailed given | lost given | reread given =>
          exact absurd (given.symm.trans empty) nofun
  · have given := Bool.eq_false_iff.2 empty
    simp only [if_neg empty, runs_change_iff, runs_first_iff]
    constructor
    · rintro (⟨failure, rfl, rfl⟩ | ⟨rfl, rfl⟩ | ⟨current, others, rest, rfl, after⟩)
      · exact .findFailed failure
      · exact .missing
      · obtain ⟨failure, rfl, rfl⟩ | ⟨rfl, rfl⟩ | ⟨count, rest, reached, rfl, after⟩ := after
        · exact .writeFailed given current others failure
        · exact .unreached given current others
        · obtain ⟨failure, rfl, rfl⟩ | ⟨rfl, rfl⟩ | ⟨stored, more, rfl, rfl⟩ := after
          · exact .rereadFailed given current others reached failure
          · exact .lost given current others reached
          · exact .reread given current others reached stored more
    · intro run
      cases run with
      | findFailed failure => exact .inl ⟨failure, rfl, rfl⟩
      | missing => exact .inr (.inl ⟨rfl, rfl⟩)
      | unchanged isEmpty => exact absurd isEmpty empty
      | writeFailed _ current others failure =>
          exact .inr (.inr ⟨current, others, _, rfl, .inl ⟨failure, rfl, rfl⟩⟩)
      | unreached _ current others =>
          exact .inr (.inr ⟨current, others, _, rfl, .inr (.inl ⟨rfl, rfl⟩)⟩)
      | rereadFailed _ current others reached failure =>
          exact .inr (.inr ⟨current, others, _, rfl,
            .inr (.inr ⟨_, _, reached, rfl, .inl ⟨failure, rfl, rfl⟩⟩)⟩)
      | lost _ current others reached =>
          exact .inr (.inr ⟨current, others, _, rfl,
            .inr (.inr ⟨_, _, reached, rfl, .inr (.inl ⟨rfl, rfl⟩)⟩)⟩)
      | reread _ current others reached stored more =>
          exact .inr (.inr ⟨current, others, _, rfl,
            .inr (.inr ⟨_, _, reached, rfl, .inr (.inr ⟨stored, more, rfl, rfl⟩)⟩)⟩)

end RequestQuery.Repository
