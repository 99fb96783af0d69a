/-
# What a run sends

The statements of a run are known from what comes back for them.  First the root statement; then,
load by load, the keys of the rows of the root in batches, and after these the keys of the records
that came back, for each join nested in the load.  A key is a usable value, and of those with one
match key only the first is bound (`keysOf`).

A failure cuts this off.  What was sent until then is the beginning of what would have been sent
without it, and the failure itself is the result (`run_conversation`).
-/
import RequestQuery.Proofs.Plan.Locality
import RequestQuery.Proofs.Plan.Values

namespace RequestQuery.Plan

set_option autoImplicit false

/-! ## Keys -/

/-- A value has a match key unless it is null or holds other values. -/
theorem matchKey?_eq_none_iff {value : Json.Value} :
    matchKey? value = none ↔
      value = .null ∨ (∃ items, value = .array items) ∨ ∃ members, value = .object members := by
  cases value <;> simp [matchKey?]

/-- The value of a column as it is matched and as it is bound. -/
def usableKey? (column : String) (row : Row) : Option (String × Parameter) :=
  (Ordered.get? row column).bind fun value =>
    (matchKey? value).map fun key => (key, Parameter.ofJson value)

/-- Entries without those whose name has occurred before. -/
def firstOfEach : Ordered Parameter → Ordered Parameter
  | [] => []
  | entry :: rest => entry :: (firstOfEach rest).filter fun other => other.1 ≠ entry.1

/-- The keys of rows by their match keys, each once, in the order in which they first occur. -/
def keysOf (column : String) (rows : List Row) : Ordered Parameter :=
  firstOfEach (rows.filterMap (usableKey? column))

theorem distinct_firstOfEach (entries : Ordered Parameter) : (firstOfEach entries).Distinct := by
  induction entries with
  | nil => exact List.nodup_nil
  | cons entry rest ih =>
      refine List.nodup_cons.2 ⟨fun repeated => ?_, ih.sublist (List.filter_sublist.map _)⟩
      obtain ⟨other, kept, same⟩ := List.mem_map.1 repeated
      have different := of_decide_eq_true (List.mem_filter.1 kept).2
      exact different same

/-- Adding entries one by one, unless they are there, adds the first of each. -/
theorem foldl_addFirst (entries seen : Ordered Parameter) :
    entries.foldl addFirst seen =
      seen ++ (firstOfEach entries).filter fun entry => entry.1 ∉ seen.names := by
  induction entries generalizing seen with
  | nil => exact (List.append_nil seen).symm
  | cons entry rest ih =>
      rw [List.foldl_cons, ih, firstOfEach, List.filter_cons, List.filter_filter]
      by_cases known : entry.1 ∈ seen.names
      · have unchanged : addFirst seen entry = seen := by rw [addFirst_eq, if_pos known]
        rw [unchanged, if_neg (by simp [known])]
        congr 1
        refine List.filter_congr fun other _ => ?_
        by_cases same : other.1 = entry.1
        · simp [same, known]
        · simp [same]
      · have added : addFirst seen entry = seen ++ [entry] := by
          rw [addFirst_eq, if_neg known, Ordered.put_of_not_mem _ known]
        have names : (seen ++ [entry]).names = seen.names ++ [entry.1] := List.map_append
        rw [added, names, if_pos (by simp [known]), List.append_assoc, List.singleton_append]
        congr 2
        refine List.filter_congr fun other _ => ?_
        by_cases same : other.1 = entry.1
        · simp [same]
        · simp [same]

theorem firstEntries_eq_firstOfEach (entries : Ordered Parameter) :
    firstEntries entries = firstOfEach entries := by
  rw [firstEntries_eq, foldl_addFirst, List.nil_append]
  exact List.filter_eq_self.2 fun _ _ => rfl

theorem parentKeys_eq_keysOf (column : String) (rows : List Row) :
    parentKeys column (rows.map Record.ofRow) = (keysOf column rows).map (·.2) := by
  rw [parentKeys, firstEntries_eq_firstOfEach, List.filterMap_map, keysOf]
  have same : keyPair? column ∘ Record.ofRow = usableKey? column := by
    funext row
    change ((Ordered.get? row column).bind fun value =>
      (matchKey? value).bind fun key => some (key, Parameter.ofJson value)) = _
    unfold usableKey?
    congr 1
    funext value
    cases matchKey? value <;> rfl
  rw [same]

/-! ## Batches -/

theorem ne_nil_of_mem_batches {keys batch : List Parameter} (member : batch ∈ batches keys) :
    batch ≠ [] := by
  fun_induction batches keys with
  | case1 => exact absurd member List.not_mem_nil
  | case2 key rest ih =>
      rcases List.mem_cons.1 member with rfl | later
      · exact List.cons_ne_nil _ _
      · exact ih later

/-- Only the last batch may be short. -/
theorem length_of_mem_dropLast_batches {keys batch : List Parameter}
    (member : batch ∈ (batches keys).dropLast) : batch.length = batchSize := by
  fun_induction batches keys with
  | case1 => exact absurd member List.not_mem_nil
  | case2 key rest ih =>
      by_cases last : rest.drop (batchSize - 1) = []
      · rw [last, batches] at member
        exact absurd member List.not_mem_nil
      · have more : batches (rest.drop (batchSize - 1)) ≠ [] := by
          intro none
          have whole := flatten_batches (rest.drop (batchSize - 1))
          rw [none] at whole
          exact last whole.symm
        rw [List.dropLast_cons_of_ne_nil more] at member
        rcases List.mem_cons.1 member with rfl | later
        · have long : batchSize - 1 < rest.length := by
            rw [List.drop_eq_nil_iff, not_le] at last
            exact last
          rw [List.length_cons, List.length_take, Nat.min_eq_left (Nat.le_of_lt long)]
          rfl
        · exact ih later

/-! ## What is asked for -/

/-- A join is asked for by keys with different match keys, in batches of at most 500, of which only
the last may have less.  The statement of a batch binds its keys before anything else. -/
structure Join.AsksFor (join : Join) (keys : Ordered Parameter) (answers : Answers) : Prop where
  distinct : keys.Distinct
  batched : ∃ parts : List (List Parameter),
    parts.flatten = keys.map (·.2) ∧ answers.map (·.1) = parts.map join.statement ∧
      (∀ part ∈ parts, part ≠ [] ∧ part.length ≤ 500 ∧
        part <+: (join.statement part).parameters) ∧
        ∀ part ∈ parts.dropLast, part.length = 500

/-- A load is asked for by the keys of its parents, or not at all where it is known to be empty, and
then each join nested in it by the keys of all the rows that came back for the load. -/
structure EagerLoad.AsksFor (load : EagerLoad) (parents : List Row) (answers : LoadAnswers) :
    Prop where
  own : load.join.AsksFor
    (if load.isEmpty then [] else keysOf load.join.localKey parents) answers.own
  nested : List.Forall₂
    (fun join part => join.AsksFor (keysOf join.localKey (answers.own.rows.map unranked)) part)
    load.nested answers.nested

/-- All that is said in a run, from the rows of the root and what came back for the loads. -/
def conversation (plan : Plan) (rows : List Row) (answers : List LoadAnswers) : List Exchange :=
  .query plan.statement (.ok rows) :: answers.flatMap LoadAnswers.exchanges

/-- Keys that fit into one statement are bound by one. -/
theorem Join.AsksFor.statements_of_few {join : Join} {keys : Ordered Parameter} {answers : Answers}
    (asks : join.AsksFor keys answers) (present : keys ≠ []) (few : keys.length ≤ 500) :
    answers.map (·.1) = [join.statement (keys.map (·.2))] := by
  obtain ⟨parts, whole, stated, sizes, full⟩ := asks.batched
  have single : parts = [keys.map (·.2)] := by
    match parts with
    | [] => exact absurd (List.map_eq_nil_iff.1 whole.symm) present
    | [part] => rw [← whole, List.flatten_singleton]
    | first :: second :: rest =>
        have long : first.length = 500 := full first List.mem_cons_self
        have more := List.length_pos_of_ne_nil
          (sizes second (List.mem_cons_of_mem _ List.mem_cons_self)).1
        have total := congrArg List.length whole
        simp only [List.flatten_cons, List.length_append, List.length_map] at total
        omega
  rw [stated, single, List.map_singleton]

theorem asksFor_of_asks {join : Join} {keys : Ordered Parameter} {answers : Answers}
    (distinct : keys.Distinct) (asks : join.Asks (keys.map (·.2)) answers) :
    join.AsksFor keys answers where
  distinct := distinct
  batched :=
    ⟨_, flatten_batches (keys.map Prod.snd), asks,
      fun part member => ⟨ne_nil_of_mem_batches member, length_le_of_mem_batches member,
        join.prefix_parameters part⟩,
      fun _ member => length_of_mem_dropLast_batches member⟩

theorem asksFor_of_load {load : EagerLoad} {rows : List Row} {answers : LoadAnswers}
    (asks : load.Asks rows answers) : load.AsksFor rows answers := by
  obtain ⟨own, nested⟩ := asks
  constructor
  · cases empty : load.isEmpty with
    | true =>
        rw [empty] at own
        exact asksFor_of_asks List.nodup_nil own
    | false =>
        rw [empty] at own
        refine asksFor_of_asks (distinct_firstOfEach _) ?_
        rw [if_neg Bool.false_ne_true] at own ⊢
        rwa [← parentKeys_eq_keysOf]
  · refine nested.imp fun join part asked => asksFor_of_asks (distinct_firstOfEach _) ?_
    have fetched : answers.own.rows.map fetchedRecord =
        (answers.own.rows.map unranked).map Record.ofRow := by
      rw [List.map_map]
      rfl
    rw [fetched, parentKeys_eq_keysOf] at asked
    exact asked

/-! ## Failures -/

theorem stops_fetchBatches (join : Join) (parts : List (List Parameter)) :
    (fetchBatches join parts).Stops := by
  induction parts with
  | nil => exact .pure _
  | cons part parts ih => exact .bind (.rows _) fun _ => ih.bind fun _ => .pure _

theorem stops_runJoin (join : Join) {nested : List Record → Session (List Record)}
    (stops : ∀ fetched, (nested fetched).Stops) (keys : List Parameter) (parents : List Record) :
    (runJoin join nested keys parents).Stops :=
  (stops_fetchBatches join _).bind fun fetched => (stops fetched).bind fun _ => .pure _

theorem stops_runNested (joins : List Join) (parents : List Record) :
    (runNested joins parents).Stops :=
  .foldlM (fun _ join => stops_runJoin join .pure _ _) joins parents

theorem stops_runLoad (parents : List Record) (load : EagerLoad) : (runLoad parents load).Stops :=
  stops_runJoin load.join (stops_runNested load.nested) _ _

/-! ## The whole run -/

/-- What is left to do when the rows of the root are there. -/
def afterRoot (plan : Plan) (rows : List Row) : Session (List Record) := do
  let records ← plan.loads.foldlM runLoad (rows.map Record.ofRow)
  pure (records.map (·.without plan.hidden))

theorem steady_afterRoot (plan : Plan) (rows : List Row) : (plan.afterRoot rows).Steady :=
  (Session.Steady.foldlM steady_runLoad _ _).bind fun _ => .pure _

theorem stops_afterRoot (plan : Plan) (rows : List Row) : (plan.afterRoot rows).Stops :=
  (Session.Stops.foldlM stops_runLoad _ _).bind fun _ => .pure _

/-- In a conversation everything is answered. -/
theorem answered_of_conversation (plan : Plan) (rows : List Row) (answers : List LoadAnswers) :
    ∀ exchange ∈ plan.conversation rows answers, exchange.Answered := by
  have own : ∀ answers : Answers, ∀ exchange ∈ answers.exchanges, exchange.Answered := by
    intro answers exchange member
    obtain ⟨item, _, rfl⟩ := List.mem_map.1 member
    exact ⟨item.2, rfl⟩
  intro exchange member
  rcases List.mem_cons.1 member with rfl | member
  · exact ⟨rows, rfl⟩
  · obtain ⟨part, _, said⟩ := List.mem_flatMap.1 member
    rcases List.mem_append.1 said with said | said
    · exact own part.own exchange said
    · obtain ⟨nested, _, said⟩ := List.mem_flatMap.1 said
      exact own nested exchange said

section Accepted

variable {catalog : Catalog} {entity : String} {limits : Limits} {query : Request.Query}
  {plan : Plan} (accepted : compile catalog entity limits query = .ok plan)

include accepted

theorem entity_of_accepted : plan.entity = entity := by
  obtain ⟨root, _, _, found, _, _, _, _, rfl⟩ := compile_eq_ok_iff.1 accepted
  exact Catalog.name_of_entity? found

/-- A run that succeeds says the whole conversation. -/
theorem conversation_of_runs {log : List Exchange} {records : List Record}
    (run : plan.run.Runs log (.ok records)) :
    ∃ rows answers, List.Forall₂ (fun load part => load.AsksFor rows part) plan.loads answers ∧
      log = plan.conversation rows answers := by
  obtain ⟨rows, answers, asks, said, _⟩ := joined_of_runs accepted run
  exact ⟨rows, answers, asks.imp fun _ _ => asksFor_of_load, said⟩

/-- A run that does not succeed is cut at the first failure, and the failure of the root statement
is told which entity it is about. -/
theorem cut_of_runs {log : List Exchange} {result : Outcome (List Record)}
    (run : plan.run.Runs log result) :
    (∃ records, result = .ok records) ∨
      ∃ front failing instead back failure records, log = front ++ [failing] ∧
        failing.failure? = some failure ∧ failing.sent = instead.sent ∧
          plan.run.Runs (front ++ instead :: back) (.ok records) ∧
            result = .error (if front.isEmpty then failure.withEntity entity else failure) := by
  cases run with
  | query answer after =>
      cases answer with
      | error failure =>
          obtain ⟨back, records, completed⟩ := (plan.steady_afterRoot []).exists_runs
          cases after
          refine .inr ⟨[], _, .query plan.statement (.ok []), back, failure, records, rfl, rfl,
            rfl, .query _ completed, ?_⟩
          rw [entity_of_accepted accepted]
          rfl
      | ok rows =>
          rcases (plan.stops_afterRoot rows).cut_of_runs (plan.steady_afterRoot rows) after with
            succeeds | ⟨failure, failed, front, failing, instead, back, records, rfl, why, same,
              whole⟩
          · exact .inl succeeds
          · exact .inr ⟨.query plan.statement (.ok rows) :: front, failing, instead, back, failure,
              records, rfl, why, same, .query _ whole, failed⟩

/-- **A run sends what the conversation says, up to the first failure.**  The answers are the
replies of the store in their order. -/
theorem run_conversation (silence : Reply) (replies : List Reply) :
    ∃ log rows answers,
      log.map Exchange.sent = (plan.run.play silence replies).sent ∧
      (∀ (position : Nat) (exchange : Exchange), log[position]? = some exchange →
        exchange.AnsweredBy (replies[position]?.getD silence)) ∧
      List.Forall₂ (fun load part => load.AsksFor rows part) plan.loads answers ∧
      ((log = plan.conversation rows answers ∧
          (∀ position < log.length, (replies[position]?.getD silence).failure = none) ∧
          ∃ records, (plan.run.play silence replies).result = .ok records) ∨
        ∃ front failing instead back failure,
          log = front ++ [failing] ∧
          plan.conversation rows answers = front ++ instead :: back ∧
          failing.sent = instead.sent ∧
          (∀ position < front.length, (replies[position]?.getD silence).failure = none) ∧
          (replies[front.length]?.getD silence).failure = some failure ∧
          (plan.run.play silence replies).result =
            .error (if front.isEmpty then failure.withEntity entity else failure)) := by
  have run := plan.run.runs_exchanges silence replies
  have placed : ∀ (position : Nat) (exchange : Exchange),
      (plan.run.exchanges silence replies)[position]? = some exchange →
        exchange.AnsweredBy (replies[position]?.getD silence) :=
    fun _ _ => Session.answeredBy_of_exchanges silence plan.run replies
  have sent := Session.sent_exchanges silence plan.run replies
  generalize plan.run.exchanges silence replies = log at run placed sent
  -- What is said in the conversation is no failure, so neither is the reply in its place.
  have unfailing : ∀ {position : Nat} {exchange : Exchange}, log[position]? = some exchange →
      exchange.Answered → (replies[position]?.getD silence).failure = none := by
    intro position exchange found answered
    rw [← Exchange.failure?_of_answeredBy (placed position exchange found)]
    exact Exchange.failure?_of_answered answered
  rcases cut_of_runs accepted run with
    ⟨records, succeeds⟩ | ⟨front, failing, instead, back, failure, records, rfl, why, same,
      whole, failed⟩
  · rw [succeeds] at run
    obtain ⟨rows, answers, asks, rfl⟩ := conversation_of_runs accepted run
    refine ⟨_, rows, answers, sent, placed, asks, .inl ⟨rfl, fun position within => ?_, records,
      succeeds⟩⟩
    exact unfailing (List.getElem?_eq_getElem within)
      (answered_of_conversation plan rows answers _ (List.getElem_mem within))
  · obtain ⟨rows, answers, asks, said⟩ := conversation_of_runs accepted whole
    refine ⟨_, rows, answers, sent, placed, asks, .inr ⟨front, failing, instead, back, failure,
      rfl, said.symm, same, fun position within => ?_, ?_, failed⟩⟩
    · have found : (front ++ [failing])[position]? = some front[position] := by
        rw [List.getElem?_append_left within]
        exact List.getElem?_eq_getElem within
      refine unfailing found (answered_of_conversation plan rows answers _ ?_)
      rw [← said]
      exact List.mem_append_left _ (List.getElem_mem within)
    · have found : (front ++ [failing])[front.length]? = some failing := by simp
      rw [← Exchange.failure?_of_answeredBy (placed _ _ found), why]

end Accepted

/-- The statement for the comments of two posts fails, so it is the last one that is sent. -/
theorem run_conversation_posts :
    let catalog := Catalog.ofList
      [{ name := "Post", table := "posts",
         relations := [.oneToMany "comments" "Comment" "post_id"] },
       { name := "Comment", table := "comments", softDeletes := true }]
    let query := ({} : Request.Query).withLoad { relation := "comments", limit := 3 }
    let lost := Failure.of (.database "disk I/O error")
    let replies : List Reply :=
      [{ rows := [[("id", .string "a")], [("id", .string "b")], [("id", .string "a")]] },
       { failure := some lost }]
    ∃ plan, compile catalog "Post" {} query = .ok plan ∧
      (plan.run.play {} replies).sent =
        [⟨.query, .select none "posts" [] [] []⟩,
         ⟨.query, .rankedLoad
           { table := "comments"
             partition := .qualified "comments" "post_id"
             order := .qualified "comments" "id"
             direction := .ascending
             conditions :=
               [.among (.qualified "comments" "post_id") [.text "a", .text "b"],
                .isNull (.qualified "comments" "deleted_at")]
             limit := some (.int 3) }⟩] ∧
      (plan.run.play {} replies).result = .error lost := by
  intro catalog query lost replies
  obtain ⟨plan, accepted, finished, root, loads⟩ :
      ∃ plan, compile catalog "Post" {} query = .ok plan ∧
        (plan.run.play {} replies).result.toBool = false ∧
        plan.statement = .select none "posts" [] [] [] ∧
        plan.loads = [{ join :=
          { name := "comments", cardinality := .many, table := "comments", localKey := "id",
            foreignKey := "post_id", softDeletes := true,
            order := { column := "id", order := .ascending }, limit := some 3,
            constraint := .none } }] :=
    ⟨_, rfl, by decide +kernel, rfl, rfl⟩
  obtain ⟨log, rows, answers, sent, placed, asks, ⟨_, _, records, succeeds⟩ | ⟨front, failing,
    instead, back, failure, rfl, said, same, answered, failed, result⟩⟩ :=
      run_conversation accepted {} replies
  · rw [succeeds] at finished
    cases finished
  · -- Of the replies only the second one is a failure.
    have second : front.length = 1 := by
      match front, failed with
      | [], failed => cases failed
      | [_], _ => rfl
      | _ :: _ :: front, failed =>
          have spoken := answered 1 (Nat.succ_lt_succ (Nat.succ_pos front.length))
          cases spoken
    obtain ⟨first, rfl⟩ := List.length_eq_one_iff.1 second
    cases failed
    obtain ⟨rfl, loaded⟩ := List.cons.inj said
    cases placed 0 _ rfl
    rw [loads] at asks
    obtain _ | ⟨load, none⟩ := asks
    cases none
    have keyed := load.own.statements_of_few (List.cons_ne_nil _ _) (by decide +kernel)
    obtain ⟨asked, own, statement⟩ := List.map_eq_singleton_iff.1 keyed
    rw [List.flatMap_singleton, LoadAnswers.exchanges, own] at loaded
    obtain ⟨rfl, _⟩ := List.cons.inj loaded
    refine ⟨plan, accepted, ?_, result⟩
    rw [← sent, List.map_append, List.map_singleton, List.map_singleton, same]
    simp only [Exchange.sent, root, statement]
    rfl

end RequestQuery.Plan
