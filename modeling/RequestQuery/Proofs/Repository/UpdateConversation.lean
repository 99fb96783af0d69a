/-
# The conversation of an update

What an update sends is the beginning of one conversation of three statements: the lookup of the
record, the change, and the lookup of the record under the identifier that it has then.  The
conversation is written out from the row that was given (`conversation`): the change sets its
columns, with the time in the column that tells it unless one was given (`refreshed`), and the
record is looked up again by the identifier that the row gives it, or by the old one where the row
gives none (`keyAfter`).

Whatever fails in the store ends the conversation and is the result, and what succeeds is the first
row of the last lookup (`update_conversation`).
-/
import RequestQuery.Proofs.Ordered
import RequestQuery.Proofs.Plan.Values
import RequestQuery.Proofs.Repository.Update

namespace RequestQuery.Repository

set_option autoImplicit false

/-! ## What is to be sent -/

/-- A row with the time of its change, where the entity keeps it and the row does not give it: in
its place if the row has the column, and at the end otherwise. -/
def refreshed (entity : Entity) (now : String) (row : Row) : Row :=
  if entity.timestamps then
    match row.get? Entity.updatedAt with
    | none => row ++ [(Entity.updatedAt, .string now)]
    | some .null | some (.string "") =>
        row.map fun column =>
          if column.1 = Entity.updatedAt then (Entity.updatedAt, .string now) else column
    | some _ => row
  else row

/-- The identifier of a record after a row was written to it: the one that the row gives, or the one
that the record had. -/
def keyAfter (entity : Entity) (id : Parameter) (row : Row) : Parameter :=
  match row.get? entity.identifier with
  | none | some .null | some (.string "") => id
  | some value => .ofJson value

/-- The records with an identifier that are not deleted; null asks for those that have none. -/
def identifiedBy (entity : Entity) (id : Parameter) : List Sql.Condition :=
  (match id with
    | .null => .isNull (.bare entity.identifier)
    | id => .compares (.bare entity.identifier) .equal id) ::
    if entity.softDeletes then [.isNull (.bare Entity.deletedAt)] else []

/-- Everything that an update can send, in order. -/
def conversation (entity : Entity) (now : String) (id : Parameter) (row : Row) : List Sent :=
  let set := refreshed entity now row
  [⟨.query, .lookup entity.table (identifiedBy entity id)⟩,
   ⟨.execute, .update entity.table (set.map fun column => (column.1, .ofJson column.2))
     (identifiedBy entity id)⟩,
   ⟨.query, .lookup entity.table (identifiedBy entity (keyAfter entity id set))⟩]

section Update

variable {entity : Entity} {supply : Supply} {id : Parameter} {row : Row} {log : List Exchange}
  {result : Outcome Record}

/-! ## What is written -/

theorem addressed_eq_identifiedBy (entity : Entity) (id : Parameter) :
    entity.addressed entity.identifier id = identifiedBy entity id := by
  cases id <;> rfl

theorem fill_of_isMissing {value : Json.Value} (distinct : Ordered.Distinct row) {column : String}
    (found : row.get? column = some value) (missing : isMissing (some value) = true)
    (text : String) : fill text row column =
      row.map fun entry => if entry.1 = column then (column, .string text) else entry := by
  have known : column ∈ Ordered.names row := List.mem_map.2 ⟨_, Ordered.mem_of_get? found, rfl⟩
  rw [fill, found, if_pos missing, Ordered.put_of_mem distinct _ known]

theorem written_eq_refreshed (entity : Entity) (supply : Supply)
    (distinct : Ordered.Distinct row) :
    written entity supply row = refreshed entity supply.now row := by
  unfold written refreshed
  split
  · cases found : row.get? Entity.updatedAt with
    | none =>
        rw [fill, found]
        exact Ordered.put_of_not_mem _ (Ordered.get?_eq_none_iff.1 found)
    | some value =>
        cases value with
        | null => exact fill_of_isMissing distinct found rfl supply.now
        | string s =>
            by_cases empty : s = ""
            · subst empty
              exact fill_of_isMissing distinct found rfl supply.now
            · simp [fill, found, isMissing, empty]
        | _ => rw [fill, found, if_neg nofun]
  · rfl

theorem rereadKey_eq_keyAfter (entity : Entity) (id : Parameter) (row : Row) :
    rereadKey entity id row = keyAfter entity id row := by
  unfold rereadKey given? keyAfter
  cases row.get? entity.identifier with
  | none => rfl
  | some value =>
      cases value with
      | string s =>
          by_cases empty : s = ""
          · subst empty
            rfl
          · simp [isMissing, empty]
      | _ => rfl

/-- Refreshing a column that is not the identifier leaves the identifier as it was given. -/
theorem keyAfter_refreshed (supply : Supply) (distinct : Ordered.Distinct row)
    (apart : entity.timestamps = true → entity.identifier ≠ Entity.updatedAt) :
    keyAfter entity id (refreshed entity supply.now row) = keyAfter entity id row := by
  have same : (written entity supply row).get? entity.identifier =
      row.get? entity.identifier := by
    unfold written fill
    split
    next timed =>
        split
        · rw [Ordered.get?_put, if_neg (Ne.symm (apart timed))]
        · rfl
    next => rfl
  rw [← written_eq_refreshed entity supply distinct, keyAfter, keyAfter, same]

/-! ## What runs of an update have in common -/

/-- A run says a part of the conversation, from its beginning. -/
theorem UpdateRun.sent_prefix (run : UpdateRun entity supply id row log result)
    (distinct : Ordered.Distinct row) :
    log.map Exchange.sent <+: conversation entity supply.now id row := by
  have whole : conversation entity supply.now id row =
      [⟨.query, findStatement entity id⟩, ⟨.execute, writeStatement entity supply id row⟩,
       ⟨.query, rereadStatement entity supply id row⟩] := by
    rw [conversation, ← written_eq_refreshed entity supply distinct, ← rereadKey_eq_keyAfter,
      ← addressed_eq_identifiedBy, ← addressed_eq_identifiedBy]
    rfl
  rw [whole]
  cases run with
  | findFailed | missing | unchanged => exact ⟨_, rfl⟩
  | writeFailed | unreached => exact ⟨_, rfl⟩
  | rereadFailed | lost | reread => exact List.prefix_rfl

/-- What an update returns is the first row of its last lookup. -/
theorem UpdateRun.of_ok {record : Record} (run : UpdateRun entity supply id row log (.ok record)) :
    ∃ statement first others, log.getLast? = some (.query statement (.ok (first :: others))) ∧
      record = .ofRow first := by
  cases run with
  | unchanged _ current others => exact ⟨_, current, others, rfl, rfl⟩
  | reread _ _ _ _ stored more => exact ⟨_, stored, more, rfl, rfl⟩

end Update

/-- An update ends where the store fails. -/
theorem stops_update (repository : Repository) (supply : Supply) (id : Parameter) (row : Row) :
    (repository.update supply id row).Stops := by
  refine .bind (stops_first? _ _ _) fun found => .bind (stops_found _ _) fun current => ?_
  split
  · trivial
  · refine .bind (stops_change _ _) fun _ => ?_
    exact .bind (stops_first? _ _ _) fun _ => stops_found _ _

/-! ## The whole conversation -/

/-- **An update has one conversation**, whatever the store replies, and may end it early in the ways
that are listed.  The change sets the given columns in order, with the time in the column for it
unless one was given, and then binds the identifier that it is addressed by. -/
theorem update_conversation {row : Row} (distinct : Ordered.Distinct row) (repository : Repository)
    (supply : Supply) (id : Parameter) (silence : Reply) (replies : List Reply) :
    let entity := repository.entity
    let update := repository.update supply id row
    let log := update.exchanges silence replies
    let set := refreshed entity supply.now row
    UpdateRun entity supply id row log (update.play silence replies).result ∧
      log.map Exchange.sent = (update.play silence replies).sent ∧
      (∀ (position : Nat) (exchange : Exchange), log[position]? = some exchange →
        exchange.AnsweredBy (replies[position]?.getD silence)) ∧
      (update.play silence replies).sent <+: conversation entity supply.now id row ∧
      (Sql.Statement.update entity.table (set.map fun column => (column.1, .ofJson column.2))
          (identifiedBy entity id)).parameters =
        set.map (fun column => Parameter.ofJson column.2) ++ (if id.isNull then [] else [id]) ∧
      ((entity.timestamps = true → entity.identifier ≠ Entity.updatedAt) →
        keyAfter entity id set = keyAfter entity id row) ∧
      (∀ exchange ∈ log, ∀ failure, exchange.failure? = some failure →
        log.getLast? = some exchange ∧
          (update.play silence replies).result = .error failure) ∧
      ∀ record, (update.play silence replies).result = .ok record →
        ∃ statement first others, log.getLast? = some (.query statement (.ok (first :: others))) ∧
          record = .ofRow first := by
  intro entity update log set
  have runs := Session.runs_exchanges silence update replies
  have run : UpdateRun entity supply id row log (update.play silence replies).result :=
    runs_update_iff.1 runs
  have sent := Session.sent_exchanges silence update replies
  refine ⟨run, sent, fun _ _ => Session.answeredBy_of_exchanges silence update replies, ?_, ?_,
    keyAfter_refreshed supply distinct, ?_, ?_⟩
  · rw [← sent]
    exact run.sent_prefix distinct
  · rw [← addressed_eq_identifiedBy]
    exact entity.parameters_update entity.identifier set id
  · exact fun exchange member failure failed =>
      (stops_update repository supply id row).last_of_failure runs member failed
  · intro record succeeds
    rw [succeeds] at run
    exact run.of_ok

/-- A post gets another identifier and is looked up again under that one; where the store fails at
the change, it is not looked up again. -/
theorem update_conversation_post :
    let entity : Entity :=
      { name := "Post", table := "posts", uuidColumn := some "uuid", timestamps := true,
        softDeletes := true }
    let repository : Repository := { catalog := Catalog.ofList [entity], entity }
    let supply : Supply := { identifier := fun _ => "", now := "t" }
    let row : Row := [("updated_at", .null), ("uuid", .string "b")]
    let update := repository.update supply (.text "a") row
    let locked := Failure.of (.database "database is locked")
    let found : Reply := { rows := [[("uuid", .string "a")]] }
    let find : Sent :=
      ⟨.query, .lookup "posts"
        [.compares (.bare "uuid") .equal (.text "a"), .isNull (.bare "deleted_at")]⟩
    let write : Sent :=
      ⟨.execute, .update "posts" [("updated_at", .text "t"), ("uuid", .text "b")]
        [.compares (.bare "uuid") .equal (.text "a"), .isNull (.bare "deleted_at")]⟩
    let reread : Sent :=
      ⟨.query, .lookup "posts"
        [.compares (.bare "uuid") .equal (.text "b"), .isNull (.bare "deleted_at")]⟩
    let moved := update.play {} [found, { affected := 1 }, { rows := [[("uuid", .string "b")]] }]
    let failed := update.play {} [found, { failure := some locked }]
    Ordered.Distinct row ∧
      moved.sent = [find, write, reread] ∧ moved.result = .ok (.ofRow [("uuid", .string "b")]) ∧
      failed.sent = [find, write] ∧ failed.result = .error locked := by
  intro entity repository supply row update locked found find write reread moved failed
  have distinct : Ordered.Distinct row :=
    List.nodup_cons.2 ⟨by decide, List.nodup_singleton _⟩
  have each := update_conversation distinct repository supply (.text "a") {}
  have goes : moved.sent = [find, write, reread] ∧
      moved.result = .ok (.ofRow [("uuid", .string "b")]) := by
    obtain ⟨run, sent, answered, _⟩ :=
      each [found, { affected := 1 }, { rows := [[("uuid", .string "b")]] }]
    rw [← sent]
    generalize update.exchanges {} _ = log at run answered
    generalize Transcript.result _ = result at run
    cases run with
    | findFailed failure | missing => cases answered 0 _ rfl
    | unchanged empty => cases empty
    | writeFailed | unreached => cases answered 1 _ rfl
    | rereadFailed | lost => cases answered 2 _ rfl
    | reread _ current others reached stored more =>
        cases answered 2 _ rfl
        exact ⟨rfl, rfl⟩
  have stops : failed.sent = [find, write] ∧ failed.result = .error locked := by
    obtain ⟨run, sent, answered, _⟩ := each [found, { failure := some locked }]
    rw [← sent]
    generalize update.exchanges {} _ = log at run answered
    generalize Transcript.result _ = result at run
    cases run with
    | findFailed failure | missing => cases answered 0 _ rfl
    | unchanged empty => cases empty
    | unreached | rereadFailed | lost | reread => cases answered 1 _ rfl
    | writeFailed _ current others failure =>
        cases answered 1 _ rfl
        exact ⟨rfl, rfl⟩
  exact ⟨distinct, goes.1, goes.2, stops.1, stops.2⟩

end RequestQuery.Repository
