/-
# What the steps of an operation say and hear

An operation on single records is put together from lookups, changes and insertions.  Each of them
says one thing and goes on in one of three ways: the store fails, the answer is that there is no
record, or the operation goes on with what came back.  A failure of the store ends the operation
(`Session.Stops`).
-/
import RequestQuery.Proofs.Session
import RequestQuery.Repository.Basic

namespace RequestQuery.Repository

set_option autoImplicit false

variable {entity : Entity} {cause : Failure.Cause} {log : List Exchange} {result : Outcome Record}

/-- A lookup fails with the store, finds nothing, or hands the first record on. -/
theorem runs_lookup_iff {column : String} {value : Parameter} {next : Record → Session Record} :
    (first? entity column value >>= fun record =>
        Session.found cause record >>= next).Runs log result ↔
      (∃ failure, log = [.query (entity.lookup column value) (.error failure)] ∧
          result = .error failure) ∨
        (log = [.query (entity.lookup column value) (.ok [])] ∧
          result = .error (.of cause)) ∨
        ∃ first others rest,
          log = .query (entity.lookup column value) (.ok (first :: others)) :: rest ∧
            (next (.ofRow first)).Runs rest result := by
  constructor
  · intro run
    cases run with
    | query answer after =>
        rcases answer with failure | _ | ⟨first, others⟩
        · cases after
          exact .inl ⟨failure, rfl, rfl⟩
        · cases after
          exact .inr (.inl ⟨rfl, rfl⟩)
        · exact .inr (.inr ⟨first, others, _, rfl, after⟩)
  · rintro (⟨failure, rfl, rfl⟩ | ⟨rfl, rfl⟩ | ⟨first, others, rest, rfl, after⟩)
    · exact .query _ (.done _)
    · exact .query _ (.done _)
    · exact .query _ after

/-- A change fails with the store, reaches nothing, or the session goes on. -/
theorem runs_change_iff {statement : Sql.Statement} {next : Session Record} :
    (change entity statement >>= fun _ => next).Runs log result ↔
      (∃ failure, log = [.execute statement (.error failure)] ∧ result = .error failure) ∨
        (log = [.execute statement (.ok 0)] ∧ result = .error (.of (notFound entity))) ∨
        ∃ count rest, 0 < count ∧ log = .execute statement (.ok count) :: rest ∧
          next.Runs rest result := by
  constructor
  · intro run
    cases run with
    | execute answer after =>
        rcases answer with failure | _ | count
        · cases after
          exact .inl ⟨failure, rfl, rfl⟩
        · cases after
          exact .inr (.inl ⟨rfl, rfl⟩)
        · exact .inr (.inr ⟨count + 1, _, Nat.succ_pos _, rfl, after⟩)
  · rintro (⟨failure, rfl, rfl⟩ | ⟨rfl, rfl⟩ | ⟨_ | count, rest, reached, rfl, after⟩)
    · exact .execute _ (.done _)
    · exact .execute _ (.done _)
    · exact absurd reached (Nat.lt_irrefl 0)
    · exact .execute _ after

/-- An insertion fails with the store, or the session goes on with the number of the new row. -/
theorem runs_rowNumber_iff {statement : Sql.Statement} {next : Int64 → Session Record} :
    (Session.rowNumber statement >>= next).Runs log result ↔
      (∃ failure, log = [.insert statement (.error failure)] ∧ result = .error failure) ∨
        ∃ number rest, log = .insert statement (.ok number) :: rest ∧
          (next number).Runs rest result := by
  constructor
  · intro run
    cases run with
    | insert answer after =>
        rcases answer with failure | number
        · cases after
          exact .inl ⟨failure, rfl, rfl⟩
        · exact .inr ⟨number, _, rfl, after⟩
  · rintro (⟨failure, rfl, rfl⟩ | ⟨number, rest, rfl, after⟩)
    · exact .insert _ (.done _)
    · exact .insert _ after

/-- A lookup whose first record is the result. -/
theorem runs_first_iff {column : String} {value : Parameter} :
    (first? entity column value >>= Session.found cause).Runs log result ↔
      (∃ failure, log = [.query (entity.lookup column value) (.error failure)] ∧
          result = .error failure) ∨
        (log = [.query (entity.lookup column value) (.ok [])] ∧
          result = .error (.of cause)) ∨
        ∃ first others, log = [.query (entity.lookup column value) (.ok (first :: others))] ∧
          result = .ok (.ofRow first) := by
  have ended : (first? entity column value >>= Session.found cause) =
      first? entity column value >>= fun record =>
        Session.found cause record >>= pure :=
    congrArg (first? entity column value >>= ·) (funext fun _ => (Session.bind_done _).symm)
  rw [ended, runs_lookup_iff]
  refine or_congr_right (or_congr_right ⟨?_, ?_⟩)
  · rintro ⟨first, others, rest, rfl, after⟩
    obtain ⟨rfl, rfl⟩ := Session.Runs.of_pure after
    exact ⟨first, others, rfl, rfl⟩
  · rintro ⟨first, others, rfl, rfl⟩
    exact ⟨first, others, [], rfl, .done _⟩

/-! ## Failures of the store -/

theorem stops_first? (entity : Entity) (column : String) (value : Parameter) :
    (first? entity column value).Stops :=
  .bind (.rows _) fun _ => .pure _

theorem stops_found {α : Type} (cause : Failure.Cause) (found : Option α) :
    (Session.found cause found).Stops := by
  cases found <;> trivial

theorem stops_change (entity : Entity) (statement : Sql.Statement) :
    (change entity statement).Stops := by
  refine .bind ⟨fun _ => rfl, fun _ => trivial⟩ fun count => ?_
  split <;> trivial

end RequestQuery.Repository
