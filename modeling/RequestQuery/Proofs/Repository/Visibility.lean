/-
# Records that are not found again

An update that finds no record says so, and it says the same when it has written a record and then
does not find it again (`UpdateRun.lost`).  Only in the other two cases nothing was changed.

Whether a written record can be found depends on what was written.  Of the store it is only assumed
how single rows are kept and what conditions say about them (`RowSemantics`); a table then answers
lookups and changes one after the other (`ServesAll`).  A row that does not clear the identifier and
does not mark the record as deleted leaves every record that it reaches where the second lookup
finds it (`satisfies_overwritten`), and an update with such a row finds no record only if it changed
nothing (`unchanged_of_notFound`).
-/
import RequestQuery.Proofs.Parameter
import RequestQuery.Proofs.Repository.Update

namespace RequestQuery

set_option autoImplicit false

/-! ## Rows of a table -/

/-- What a store makes of values that are bound, and of conditions on a row.  A value that was kept
is found by a comparison with the same value, and a comparison looks at no other column. -/
structure RowSemantics where
  kept : Parameter → Json.Value
  holds : Row → Sql.Condition → Prop
  kept_null : kept .null = .null
  holds_isNull : ∀ {row : Row} {name : String},
    holds row (.isNull (.bare name)) ↔ (row.get? name).getD .null = .null
  holds_congr : ∀ {row other : Row} {name : String} {value : Parameter},
    row.get? name = other.get? name → holds row (.compares (.bare name) .equal value) →
      holds other (.compares (.bare name) .equal value)
  holds_kept : ∀ {row : Row} {name : String} {value : Json.Value}, value ≠ .null →
    row.get? name = some (kept (.ofJson value)) →
      holds row (.compares (.bare name) .equal (.ofJson value))

namespace RowSemantics

variable (semantics : RowSemantics)

def Satisfies (conditions : List Sql.Condition) (row : Row) : Prop :=
  ∀ condition ∈ conditions, semantics.holds row condition

/-- A row with new values in some columns. -/
def overwritten (entries : Ordered Parameter) (row : Row) : Row :=
  entries.foldl (fun row entry => Ordered.put row entry.1 (semantics.kept entry.2)) row

/-- Every row that satisfies the conditions is overwritten, and these are counted. -/
inductive Rewrites (conditions : List Sql.Condition) (entries : Ordered Parameter) :
    List Row → Nat → List Row → Prop where
  | nil : Rewrites conditions entries [] 0 []
  | reached {row : Row} {rows after : List Row} {count : Nat}
      (satisfies : semantics.Satisfies conditions row)
      (others : Rewrites conditions entries rows count after) :
      Rewrites conditions entries (row :: rows) (count + 1)
        (semantics.overwritten entries row :: after)
  | passed {row : Row} {rows after : List Row} {count : Nat}
      (fails : ¬semantics.Satisfies conditions row)
      (others : Rewrites conditions entries rows count after) :
      Rewrites conditions entries (row :: rows) count (row :: after)

/-- How a table answers, and which rows it has afterwards.  What fails changes nothing. -/
inductive Serves (table : String) : List Row → Exchange → List Row → Prop where
  | found {rows : List Row} {conditions : List Sql.Condition} {row : Row} (member : row ∈ rows)
      (satisfies : semantics.Satisfies conditions row) :
      Serves table rows (.query (.lookup table conditions) (.ok [row])) rows
  | notFound {rows : List Row} {conditions : List Sql.Condition}
      (none : ∀ row ∈ rows, ¬semantics.Satisfies conditions row) :
      Serves table rows (.query (.lookup table conditions) (.ok [])) rows
  | changed {rows after : List Row} {conditions : List Sql.Condition}
      {entries : Ordered Parameter} {count : Nat}
      (rewrites : semantics.Rewrites conditions entries rows count after) :
      Serves table rows (.execute (.update table entries conditions) (.ok count)) after
  | failed {rows : List Row} {exchange : Exchange} {failure : Failure}
      (why : exchange.failure? = some failure) : Serves table rows exchange rows

/-- A conversation with a table that nobody else changes meanwhile. -/
inductive ServesAll (table : String) : List Row → List Exchange → List Row → Prop where
  | nil (rows : List Row) : ServesAll table rows [] rows
  | cons {rows mid after : List Row} {exchange : Exchange} {log : List Exchange}
      (first : semantics.Serves table rows exchange mid) (others : ServesAll table mid log after) :
      ServesAll table rows (exchange :: log) after

variable {semantics}

section Tables

variable {table : String} {rows after : List Row} {conditions : List Sql.Condition}
  {entries : Ordered Parameter} {count : Nat}

theorem Rewrites.eq_of_zero (rewrites : semantics.Rewrites conditions entries rows 0 after) :
    after = rows := by
  generalize none : 0 = count at rewrites
  induction rewrites with
  | nil => rfl
  | reached _ _ _ => cases none
  | passed _ _ ih => rw [ih none]

theorem Rewrites.exists_reached (rewrites : semantics.Rewrites conditions entries rows count after)
    (some : 0 < count) :
    ∃ row, semantics.Satisfies conditions row ∧ semantics.overwritten entries row ∈ after := by
  induction rewrites with
  | nil => exact absurd some (Nat.lt_irrefl 0)
  | reached satisfies _ _ => exact ⟨_, satisfies, List.mem_cons_self⟩
  | passed _ _ ih =>
      obtain ⟨row, satisfies, member⟩ := ih some
      exact ⟨row, satisfies, List.mem_cons_of_mem _ member⟩

theorem Serves.none_of_lookup
    (serves : semantics.Serves table rows (.query (.lookup table conditions) (.ok [])) after) :
    ∀ row ∈ rows, ¬semantics.Satisfies conditions row := by
  cases serves with
  | notFound none => exact none
  | failed why => cases why

theorem Serves.of_update
    (serves : semantics.Serves table rows (.execute (.update table entries conditions) (.ok count))
      after) : semantics.Rewrites conditions entries rows count after := by
  cases serves with
  | changed rewrites => exact rewrites
  | failed why => cases why

theorem get?_overwritten {row written : Row} (distinct : Ordered.Distinct written)
    (name : String) :
    (semantics.overwritten (Entity.entries written) row).get? name =
      ((written.get? name).map fun value => semantics.kept (.ofJson value)).or (row.get? name) := by
  induction written generalizing row with
  | nil => rfl
  | cons column written ih =>
      obtain ⟨fresh, others⟩ := List.nodup_cons.1 distinct
      change (semantics.overwritten (Entity.entries written)
        (Ordered.put row column.1 (semantics.kept (.ofJson column.2)))).get? name = _
      rw [ih others, Ordered.get?_put]
      by_cases same : column.1 = name
      · subst same
        have absent : Ordered.get? written column.1 = none := Ordered.get?_eq_none_iff.2 fresh
        simp [Ordered.get?, absent]
      · simp [Ordered.get?, same]

end Tables

end RowSemantics

namespace Repository

/-! ## Records that are written and found -/

/-- A row that leaves its record where it is looked for: it does not clear the identifier, and it
does not mark the record as deleted. -/
structure KeepsVisible (entity : Entity) (row : Row) : Prop where
  identified : isMissing (row.get? entity.identifier) = true → row.get? entity.identifier = none
  undeleted : entity.softDeletes = true → (row.get? Entity.deletedAt).getD .null = .null

section Visible

variable {semantics : RowSemantics} {entity : Entity} {id : Parameter} {row stored : Row}

theorem satisfies_addressed_iff {column : String} {value : Parameter} :
    semantics.Satisfies (entity.addressed column value) stored ↔
      semantics.holds stored (.ofPredicate none (.equals column value)) ∧
        (entity.softDeletes = true → (stored.get? Entity.deletedAt).getD .null = .null) := by
  rw [RowSemantics.Satisfies, Entity.addressed, List.forall_mem_cons]
  refine and_congr_right fun _ => ?_
  unfold Sql.Condition.notDeleted
  by_cases marks : entity.softDeletes = true
  · simp [marks, semantics.holds_isNull]
  · simp [marks]

theorem holds_equals_congr {other : Row} {column : String} {value : Parameter}
    (same : stored.get? column = other.get? column)
    (holds : semantics.holds stored (.ofPredicate none (.equals column value))) :
    semantics.holds other (.ofPredicate none (.equals column value)) := by
  cases value with
  | null => exact semantics.holds_isNull.2 (same ▸ semantics.holds_isNull.1 holds)
  | _ => exact semantics.holds_congr same holds

theorem holds_equals_kept {column : String} {value : Json.Value} (given : value ≠ .null)
    (kept : stored.get? column = some (semantics.kept (.ofJson value))) :
    semantics.holds stored (.ofPredicate none (.equals column (.ofJson value))) := by
  have holds := semantics.holds_kept given kept
  have compares : Sql.Condition.ofPredicate none (.equals column (.ofJson value)) =
      .compares (.bare column) .equal (.ofJson value) := by
    cases value with
    | null => exact absurd rfl given
    | number n =>
        change _ = Sql.Condition.compares (.bare column) .equal (.ofNumber n)
        change Sql.Condition.ofPredicate none (.equals column (.ofNumber n)) = _
        unfold Parameter.ofNumber
        cases n.toInt64? <;> rfl
    | _ => rfl
  rwa [compares]

/-- A record has its new identifier, or still the one that it was addressed by. -/
theorem holds_reread (distinct : Ordered.Distinct row) (keeps : KeepsVisible entity row)
    (addressed : semantics.holds stored (.ofPredicate none (.equals entity.identifier id))) :
    semantics.holds (semantics.overwritten (Entity.entries row) stored)
      (.ofPredicate none (.equals entity.identifier (rereadKey entity id row))) := by
  have now : (semantics.overwritten (Entity.entries row) stored).get? entity.identifier = _ :=
    RowSemantics.get?_overwritten distinct entity.identifier
  cases written : row.get? entity.identifier with
  | none =>
      have same : rereadKey entity id row = id := by simp [rereadKey, given?, written, isMissing]
      rw [same]
      rw [written] at now
      exact holds_equals_congr now.symm addressed
  | some value =>
      have given : isMissing (row.get? entity.identifier) = false := by
        refine Bool.eq_false_iff.2 fun missing => ?_
        rw [keeps.identified missing] at written
        cases written
      have fresh : rereadKey entity id row = .ofJson value := by
        rw [rereadKey, given?, if_neg (Bool.eq_false_iff.1 given), written]
        rfl
      rw [fresh]
      rw [written] at now
      refine holds_equals_kept ?_ now
      rintro rfl
      rw [written] at given
      cases given

theorem unmarked_overwritten (distinct : Ordered.Distinct row)
    (unmarked : (row.get? Entity.deletedAt).getD .null = .null)
    (undeleted : (stored.get? Entity.deletedAt).getD .null = .null) :
    ((semantics.overwritten (Entity.entries row) stored).get? Entity.deletedAt).getD .null =
      .null := by
  rw [RowSemantics.get?_overwritten distinct]
  cases written : row.get? Entity.deletedAt with
  | none => exact undeleted
  | some value =>
      rw [written] at unmarked
      obtain rfl : value = .null := unmarked
      exact semantics.kept_null

/-- **A record that was reached is found again** under its new identifier. -/
theorem satisfies_overwritten (distinct : Ordered.Distinct row)
    (keeps : KeepsVisible entity row)
    (reached : semantics.Satisfies (entity.addressed entity.identifier id) stored) :
    semantics.Satisfies (entity.addressed entity.identifier (rereadKey entity id row))
      (semantics.overwritten (Entity.entries row) stored) := by
  rw [satisfies_addressed_iff] at reached ⊢
  obtain ⟨addressed, undeleted⟩ := reached
  exact ⟨holds_reread distinct keeps addressed, fun marks =>
    unmarked_overwritten distinct (keeps.undeleted marks) (undeleted marks)⟩

end Visible

/-! ## Updates that find no record -/

/-- Nothing was changed: nothing was sent that changes records, or what was sent reached none. -/
def Unwritten (log : List Exchange) : Prop :=
  ∀ statement answer, .execute statement answer ∈ log → answer = .ok 0

/-- A record was written, and then looked for in vain. -/
def Lost (entity : Entity) (supply : Supply) (id : Parameter) (row : Row) (log : List Exchange) :
    Prop :=
  ∃ current others count, 0 < count ∧ log =
    [.query (findStatement entity id) (.ok (current :: others)),
     .execute (writeStatement entity supply id row) (.ok count),
     .query (rereadStatement entity supply id row) (.ok [])]

section Failures

variable {semantics : RowSemantics} {entity : Entity} {supply : Supply} {id : Parameter}
  {row : Row} {log : List Exchange} {before after : List Row}

/-- A table is as it was where no change reached a row. -/
theorem eq_of_unwritten {table : String} (served : semantics.ServesAll table before log after)
    (unwritten : Unwritten log) : after = before := by
  induction served with
  | nil rows => rfl
  | cons first _ ih =>
      rw [ih fun statement answer member =>
        unwritten statement answer (List.mem_cons_of_mem _ member)]
      cases first with
      | found _ _ | notFound _ | failed _ => rfl
      | changed rewrites =>
          obtain rfl := Except.ok.inj (unwritten _ _ List.mem_cons_self)
          exact rewrites.eq_of_zero

theorem distinct_written (distinct : Ordered.Distinct row) :
    Ordered.Distinct (written entity supply row) := by
  unfold written fill
  split
  · split
    · exact distinct.put _ _
    · exact distinct
  · exact distinct

/-- A table loses no record to a row that keeps it visible. -/
theorem not_lost (served : semantics.ServesAll entity.table before log after)
    (distinct : Ordered.Distinct row) (keeps : KeepsVisible entity (written entity supply row)) :
    ¬Lost entity supply id row log := by
  rintro ⟨current, others, count, reached, rfl⟩
  obtain _ | ⟨_, _ | ⟨second, _ | ⟨third, _⟩⟩⟩ := served
  have rewrites := RowSemantics.Serves.of_update second
  obtain ⟨stored, satisfies, member⟩ := rewrites.exists_reached reached
  exact RowSemantics.Serves.none_of_lookup third _ member
    (satisfies_overwritten (distinct_written distinct) keeps satisfies)

/-- A failure that is not the store's. -/
theorem UpdateRun.of_error {failure : Failure}
    (run : UpdateRun entity supply id row log (.error failure))
    (own : ∀ exchange ∈ log, exchange.failure? = none) :
    failure = .of (notFound entity) ∧ (Unwritten log ∨ Lost entity supply id row log) := by
  cases run with
  | findFailed _ =>
      cases own _ List.mem_cons_self
  | writeFailed _ _ _ _ =>
      cases own _ (List.mem_cons_of_mem _ List.mem_cons_self)
  | rereadFailed _ _ _ _ _ =>
      cases own _ (List.mem_cons_of_mem _ (List.mem_cons_of_mem _ List.mem_cons_self))
  | missing => exact ⟨rfl, .inl fun statement answer member => by simp at member⟩
  | unreached _ current others =>
      refine ⟨rfl, .inl fun statement answer member => ?_⟩
      simp only [List.mem_cons, reduceCtorEq, List.not_mem_nil, or_false, false_or,
        Exchange.execute.injEq] at member
      exact member.2
  | lost _ current others reached => exact ⟨rfl, .inr ⟨current, others, _, reached, rfl⟩⟩

end Failures

/-- **An update that finds no record.**  Whatever the store replies, a failure of the update's own
is that no record was found; then nothing was changed, or a record was written and not found again.
The second never happens with a table that nobody else changes, if the row keeps its record
visible. -/
theorem unchanged_of_notFound {repository : Repository} {supply : Supply} {id : Parameter}
    {row : Row} {silence : Reply} {replies : List Reply} {failure : Failure}
    (raised : ((repository.update supply id row).play silence replies).result = .error failure)
    (own : ∀ exchange ∈ (repository.update supply id row).exchanges silence replies,
      exchange.failure? = none) :
    failure = .of (notFound repository.entity) ∧
      (Unwritten ((repository.update supply id row).exchanges silence replies) ∨
        Lost repository.entity supply id row
          ((repository.update supply id row).exchanges silence replies)) ∧
        ∀ (semantics : RowSemantics) (before after : List Row),
          semantics.ServesAll repository.entity.table before
              ((repository.update supply id row).exchanges silence replies) after →
            Ordered.Distinct row →
              KeepsVisible repository.entity (written repository.entity supply row) →
                Unwritten ((repository.update supply id row).exchanges silence replies) ∧
                  after = before := by
  have run := Session.runs_exchanges silence (repository.update supply id row) replies
  rw [raised] at run
  obtain ⟨cause, either⟩ := (runs_update_iff.1 run).of_error own
  refine ⟨cause, either, fun semantics before after served distinct keeps => ?_⟩
  have unwritten := either.resolve_right (not_lost served distinct keeps)
  exact ⟨unwritten, eq_of_unwritten served unwritten⟩

/-! ## Rows that are kept as they are bound -/

/-- Values are kept as they are bound, and equal if they are bound alike. -/
def plainSemantics : RowSemantics where
  kept := Parameter.toJson
  holds row
    | .isNull (.bare name) => (row.get? name).getD .null = .null
    | .compares (.bare name) .equal value => ∃ stored, row.get? name = some stored ∧
        Parameter.ofJson stored = value
    | _ => False
  kept_null := rfl
  holds_isNull := Iff.rfl
  holds_congr := by
    rintro row other name value same ⟨stored, found, equal⟩
    exact ⟨stored, same ▸ found, equal⟩
  holds_kept _ found := ⟨_, found, Parameter.ofJson_toJson_ofJson _⟩

/-- Renaming a post that is not there. -/
theorem unchanged_of_notFound_post :
    let entity : Entity := { name := "Post", table := "posts", softDeletes := true }
    let repository : Repository := { catalog := Catalog.ofList [entity], entity }
    let supply : Supply := { identifier := fun _ => "", now := "" }
    let update := repository.update supply (.text "a") [("title", .string "t")]
    let stored : List Row := [[("id", .string "b"), ("deleted_at", .null)]]
    ∃ failure, (update.play {} []).result = .error failure ∧
      plainSemantics.ServesAll "posts" stored (update.exchanges {} []) stored ∧
        failure = .of (notFound entity) ∧ Unwritten (update.exchanges {} []) := by
  intro entity repository supply update stored
  have raised : (update.play {} []).result = .error (.of (notFound entity)) := rfl
  have own : ∀ exchange ∈ update.exchanges {} [], exchange.failure? = none := by
    intro exchange member
    rw [List.mem_singleton.1 member]
    rfl
  have served : plainSemantics.ServesAll "posts" stored (update.exchanges {} []) stored := by
    refine .cons (.notFound fun row member satisfies => ?_) (.nil _)
    obtain rfl := List.mem_singleton.1 member
    obtain ⟨⟨_, found, equal⟩, _⟩ := satisfies_addressed_iff.1 satisfies
    cases found
    exact absurd (Parameter.text.inj equal) (by decide)
  have distinct : Ordered.Distinct [("title", Json.Value.string "t")] := List.nodup_singleton _
  have keeps : KeepsVisible entity [("title", .string "t")] := ⟨fun _ => rfl, fun _ => rfl⟩
  obtain ⟨cause, _, unchanged⟩ := unchanged_of_notFound raised own
  exact ⟨_, raised, served, cause, (unchanged _ _ _ served distinct keeps).1⟩

/-- Marking a post as deleted by an update: the post is written, and the update says that there is
none. -/
theorem changed_and_notFound :
    let entity : Entity := { name := "Post", table := "posts", softDeletes := true }
    let repository : Repository := { catalog := Catalog.ofList [entity], entity }
    let supply : Supply := { identifier := fun _ => "", now := "" }
    let update := repository.update supply (.text "a") [("deleted_at", .string "t")]
    let stored : Row := [("id", .string "a"), ("deleted_at", .null)]
    let marked : Row := [("id", .string "a"), ("deleted_at", .string "t")]
    let replies : List Reply := [{ rows := [stored] }, { affected := 1 }, { rows := [] }]
    (update.play {} replies).result = .error (.of (notFound entity)) ∧
      (∀ exchange ∈ update.exchanges {} replies, exchange.failure? = none) ∧
        plainSemantics.ServesAll "posts" [stored] (update.exchanges {} replies) [marked] ∧
          ¬Unwritten (update.exchanges {} replies) := by
  intro entity repository supply update stored marked replies
  refine ⟨rfl, ?_, ?_, fun unwritten => ?_⟩
  · exact List.forall_mem_cons.2 ⟨rfl, List.forall_mem_cons.2 ⟨rfl,
      List.forall_mem_cons.2 ⟨rfl, List.forall_mem_nil _⟩⟩⟩
  · have reached : plainSemantics.Satisfies (entity.addressed "id" (.text "a")) stored :=
      satisfies_addressed_iff.2 ⟨⟨_, rfl, rfl⟩, fun _ => rfl⟩
    have unseen : ∀ row ∈ [marked],
        ¬plainSemantics.Satisfies (entity.addressed "id" (.text "a")) row := by
      intro row member satisfies
      obtain rfl := List.mem_singleton.1 member
      cases (satisfies_addressed_iff.1 satisfies).2 rfl
    exact .cons (.found List.mem_cons_self reached)
      (.cons (.changed (.reached reached .nil)) (.cons (.notFound unseen) (.nil _)))
  · cases unwritten _ (.ok 1) (List.mem_cons_of_mem _ List.mem_cons_self)

end Repository

end RequestQuery
