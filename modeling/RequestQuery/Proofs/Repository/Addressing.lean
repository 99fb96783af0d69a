/-
# Which records a change reaches

An update or a deletion is meant for the record with the identifier that it is given, and says so in
the first member of its condition: the identifier is compared with that value, which is bound after
all others.  But a comparison with null is rendered as a question for null.  So a change by null
binds nothing for it, and is a change of every record that has no identifier
(`addressed_of_change`), of which there may be many (`delete_null_reaches_many`).
-/
import RequestQuery.Proofs.Plan.Values
import RequestQuery.Proofs.Repository.SoftDeletion
import RequestQuery.Proofs.Repository.Visibility

namespace RequestQuery.Repository

set_option autoImplicit false

/-! ## Conditions of a change -/

/-- The identifier whose record an operation changes. -/
def Operation.changed? : Operation → Option Parameter
  | .update id _ | .delete id => some id
  | .findMany _ | .find _ | .create _ => none

/-- The values that a statement writes. -/
def writtenValues : Sql.Statement → List Parameter
  | .insert _ entries | .update _ entries _ => entries.map (·.2)
  | .select .. | .rankedLoad _ | .lookup .. | .delete .. => []

/-- A change asks for the undeleted records with an identifier, and binds it last. -/
def Addresses (entity : Entity) (id : Parameter) (sent : Sent) : Prop :=
  sent.kind = .execute →
    sent.statement.conditions = entity.addressed entity.identifier id ∧
      sent.statement.parameters = writtenValues sent.statement ++ Entity.addressValues id

section Changes

variable {repository : Repository} {supply : Supply} {id : Parameter}

theorem addresses_update (row : Row) :
    Addresses repository.entity id
      ⟨.execute, repository.entity.update row repository.entity.identifier id⟩ := by
  refine fun _ => ⟨rfl, ?_⟩
  rw [repository.entity.parameters_update, ← Entity.values_entries]
  rfl

/-- A real removal asks for no mark, as there is none. -/
theorem addresses_delete (removes : repository.entity.softDeletes = false) :
    Addresses repository.entity id
      ⟨.execute, repository.entity.delete repository.entity.identifier id⟩ := by
  refine fun _ => ⟨?_, repository.entity.parameters_delete _ id⟩
  rw [Entity.addressed, removes]
  rfl

theorem addresses_of_sent {operation : Operation} (changes : operation.changed? = some id)
    (silence : Reply) (replies : List Reply) :
    ∀ sent ∈ repository.sent supply silence replies operation,
      Addresses repository.entity id sent := by
  cases operation with
  | findMany _ | find _ | create _ => cases changes
  | update _ row =>
      cases changes
      exact (sends_steps_update (fun _ execute => nomatch execute)
        addresses_update).of_play silence replies
  | delete _ =>
      cases changes
      exact (sends_steps_delete (fun _ => addresses_update) addresses_delete).of_play silence
        replies

end Changes

theorem compares_of_given (column : String) {id : Parameter} (given : id.isNull = false) :
    Sql.Condition.ofPredicate none (.equals column id) = .compares (.bare column) .equal id := by
  cases id with
  | null => cases given
  | _ => rfl

/-! ## Records that are reached -/

/-- A record that is not marked as deleted, or cannot be. -/
def Undeleted (entity : Entity) (row : Row) : Prop :=
  entity.softDeletes = true → (row.get? Entity.deletedAt).getD .null = .null

/-- **What a change says, and whom it reaches.**  Whatever the store replies, a change by an
identifier that is not null compares the identifier with it and binds it last; the rows that it
reaches are the undeleted ones for which the comparison holds.  A change by null binds nothing for
it and reaches all undeleted rows that have no identifier. -/
theorem addressed_of_change {repository : Repository} {operation : Operation} {id : Parameter}
    (changes : operation.changed? = some id) (supply : Supply) (silence : Reply)
    (replies : List Reply) :
    let entity := repository.entity
    ∀ sent ∈ repository.sent supply silence replies operation, sent.kind = .execute →
      Sql.phrase (Sql.whereClause sent.statement.conditions) <:+: sent.statement.tokens ∧
        (id.isNull = false →
          sent.statement.conditions = .compares (.bare entity.identifier) .equal id ::
              Sql.Condition.notDeleted entity.softDeletes (.bare Entity.deletedAt) ∧
            sent.statement.parameters = writtenValues sent.statement ++ [id] ∧
            ∀ (semantics : RowSemantics) (row : Row),
              semantics.Satisfies sent.statement.conditions row ↔
                semantics.holds row (.compares (.bare entity.identifier) .equal id) ∧
                  Undeleted entity row) ∧
        (id.isNull = true →
          sent.statement.conditions = .isNull (.bare entity.identifier) ::
              Sql.Condition.notDeleted entity.softDeletes (.bare Entity.deletedAt) ∧
            sent.statement.parameters = writtenValues sent.statement ∧
            ∀ (semantics : RowSemantics) (row : Row),
              semantics.Satisfies sent.statement.conditions row ↔
                (row.get? entity.identifier).getD .null = .null ∧ Undeleted entity row) := by
  intro entity sent member execute
  obtain ⟨conditions, bound⟩ := addresses_of_sent changes silence replies sent member execute
  refine ⟨sent.statement.clause_infix_tokens, fun given => ?_, fun null => ?_⟩
  · have compares := compares_of_given entity.identifier given
    refine ⟨?_, ?_, fun semantics row => ?_⟩
    · rw [conditions, Entity.addressed, compares]
    · rw [bound, Entity.addressValues, given]
      rfl
    · rw [conditions, satisfies_addressed_iff, compares]
      rfl
  · obtain rfl : id = .null := by
      cases id with
      | null => rfl
      | _ => cases null
    refine ⟨conditions, bound.trans (List.append_nil _), fun semantics row => ?_⟩
    rw [conditions, satisfies_addressed_iff]
    exact and_congr_left fun _ => semantics.holds_isNull

/-- Deleting a post by its identifier. -/
theorem addressed_of_change_post :
    let entity : Entity := { name := "Post", table := "posts", uuidColumn := some "uuid" }
    let repository : Repository := { catalog := Catalog.ofList [entity], entity }
    let supply : Supply := { identifier := fun _ => "", now := "" }
    (Operation.delete (.text "a")).changed? = some (.text "a") ∧
      ∀ sent ∈ repository.sent supply {} [] (.delete (.text "a")), sent.kind = .execute →
        sent.statement.parameters = [.text "a"] ∧
          ¬plainSemantics.Satisfies sent.statement.conditions [("uuid", .string "b")] := by
  intro entity repository supply
  have changes : (Operation.delete (.text "a")).changed? = some (.text "a") := rfl
  refine ⟨changes, fun sent member execute => ?_⟩
  obtain ⟨_, given, _⟩ := addressed_of_change changes supply {} [] sent member execute
  obtain ⟨_, bound, reaches⟩ := given rfl
  obtain rfl := List.mem_singleton.1 member
  refine ⟨bound, fun satisfies => ?_⟩
  obtain ⟨⟨_, found, equal⟩, _⟩ := (reaches plainSemantics _).1 satisfies
  cases found
  exact absurd (Parameter.text.inj equal) (by decide)

/-- A deletion by null reaches every post that has no identifier. -/
theorem delete_null_reaches_many :
    let entity : Entity := { name := "Post", table := "posts", uuidColumn := some "uuid" }
    let repository : Repository := { catalog := Catalog.ofList [entity], entity }
    let supply : Supply := { identifier := fun _ => "", now := "" }
    let delete := repository.delete supply .null
    let unidentified : List Sql.Condition := [.isNull (.bare "uuid")]
    let first : Row := [("title", .string "a"), ("uuid", .null)]
    let second : Row := [("title", .string "b"), ("uuid", .null)]
    (delete.play {} [{ affected := 2 }]).sent = [⟨.execute, .delete "posts" unidentified⟩] ∧
      (delete.play {} [{ affected := 2 }]).result = .ok () ∧
      (Sql.Statement.delete "posts" unidentified).parameters = [] ∧ first ≠ second ∧
        plainSemantics.Satisfies unidentified first ∧
          plainSemantics.Satisfies unidentified second := by
  intro entity repository supply delete unidentified first second
  have reached : ∀ title, plainSemantics.Satisfies unidentified
      [("title", .string title), ("uuid", .null)] := by
    intro title condition member
    obtain rfl := List.mem_singleton.1 member
    exact plainSemantics.holds_isNull.2 rfl
  have different : first ≠ second := by
    intro same
    have titles : some "a" = some "b" :=
      congrArg (fun row : Row => (row.get? "title").bind Json.Value.string?) same
    exact absurd titles (by decide)
  exact ⟨rfl, rfl, (Sql.Statement.parameters_eq_values _).trans rfl, different, reached "a",
    reached "b"⟩

end RequestQuery.Repository
