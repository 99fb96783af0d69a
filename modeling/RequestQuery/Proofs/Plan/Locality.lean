/-
# Relations are local to their parents

The related records of many parents are fetched together, in batches that are cut wherever the count
says so.  Suppose that a store has a fixed list of rows for each key of a join, and that it answers a
statement with these lists for the keys that are bound, mixed in any way, and with nothing else
(`Conforming`).  Then each parent gets the list of its own key, and each row in it the lists of its
own keys in turn (`run_attached`).  Which other parents there are, how many, and in which order, does
not show (`relations_local`).

The keys are told apart by their match keys before they are bound.  A key that is bound has the match
key of the value it comes from, unless that is an integer which no signed word holds: such a key is
rounded, and may then be that of another parent.  So the keys have to be signed (`SignedKeys`).
-/
import RequestQuery.Proofs.Plan.BoundKeys
import RequestQuery.Proofs.Plan.OneLoad

namespace RequestQuery

set_option autoImplicit false

namespace Plan

/-! ## What a store has -/

/-- The rows that a store has for a join and a match key. -/
abbrev Kept := Join → String → List Row

/-- Rows that came back for some match keys: for each of them the rows that are kept for it, in
their order, and no others. -/
structure Join.Answered (join : Join) (kept : String → List Row) (keys : List String)
    (rows : List Row) : Prop where
  only : ∀ row ∈ rows, ∃ key ∈ keys, rowKey join.foreignKey row = some key
  each : ∀ key ∈ keys, (rows.filter fun row => rowKey join.foreignKey row = some key) = kept key

/-- Whatever is asked for is answered, and for each batch of keys of a join there come back the rows
that are kept for these keys. -/
structure Conforming (plan : Plan) (kept : Kept) (log : List Exchange) : Prop where
  answered : ∀ exchange ∈ log, exchange.Answered
  matching : ∀ load ∈ plan.loads, ∀ join ∈ load.join :: load.nested, ∀ keys rows,
    .query (join.statement keys) (.ok rows) ∈ log →
      join.Answered (kept join) (boundKeys keys) rows

/-- No column that related rows are matched by holds an integer beyond the signed words. -/
structure SignedKeys (plan : Plan) (kept : Kept) (rows : List Row) : Prop where
  root : ∀ load ∈ plan.loads, ∀ row ∈ rows,
    ∀ value ∈ Ordered.get? row load.join.localKey, value.FitsSigned
  nested : ∀ load ∈ plan.loads, ∀ join ∈ load.nested, ∀ key, ∀ row ∈ kept load.join key,
    ∀ value ∈ Ordered.get? row join.localKey, value.FitsSigned

/-! ## What a parent gets -/

/-- The rows that are kept for a key, as they are handed out. -/
def Join.keptFor (join : Join) (kept : String → List Row) (key : String) : List Row :=
  ((kept key).map unranked).filter fun row => rowKey join.foreignKey row = some key

/-- What a parent gets: the rows of its own key, each of them completed. -/
def Join.attached (join : Join) (kept : String → List Row) (complete : Row → Record)
    (parent : Row) : Related :=
  relate join.cardinality
    (match rowKey join.localKey parent with
     | some key => (join.keptFor kept key).map complete
     | none => [])

/-- A row with what it gets from the joins that are nested in its load. -/
def EagerLoad.completed (load : EagerLoad) (kept : Kept) (row : Row) : Record :=
  .of row (load.nested.map fun join => (join.name, join.attached (kept join) Record.ofRow row))

def EagerLoad.attached (load : EagerLoad) (kept : Kept) (parent : Row) : Related :=
  if load.isEmpty then relate load.join.cardinality []
  else load.join.attached (kept load.join) (load.completed kept) parent

/-- A row of the root with what it gets from the loads of the plan. -/
def attached (plan : Plan) (kept : Kept) (row : Row) : Record :=
  .of (row.filter fun column => column.1 ∉ plan.hidden)
    (plan.loads.map fun load => (load.join.name, load.attached kept row))

/-! ## Rows without their rank -/

theorem get?_of_unranked {column : String} {row : Row} {value : Json.Value}
    (found : Ordered.get? (unranked row) column = some value) :
    Ordered.get? row column = some value := by
  change Ordered.get? (Ordered.remove row Sql.rankColumn) column = some value at found
  rw [Ordered.get?_remove] at found
  split at found
  · cases found
  · exact found

theorem rowKey_of_unranked {column key : String} {row : Row}
    (keyed : rowKey column (unranked row) = some key) : rowKey column row = some key := by
  obtain ⟨value, found, matched⟩ := Option.bind_eq_some_iff.1 keyed
  exact Option.bind_eq_some_iff.2 ⟨value, get?_of_unranked found, matched⟩

/-! ## Batches put together -/

namespace Join

variable {join : Join} {kept : String → List Row}

theorem Answered.filter {keys : List String} {rows : List Row}
    (answered : join.Answered kept keys rows) (key : String) :
    (rows.filter fun row => rowKey join.foreignKey row = some key) =
      if key ∈ keys then kept key else [] := by
  split
  next asked => exact answered.each key asked
  next notAsked =>
    rw [List.filter_eq_nil_iff]
    intro row member
    obtain ⟨other, asked, keyed⟩ := answered.only row member
    rw [keyed, decide_eq_true_eq, Option.some.injEq]
    rintro rfl
    exact notAsked asked

/-- Wherever the batches are cut, the rows of a key are the ones that are kept for it. -/
theorem filter_answers {parts : List (List Parameter)} {answers : Answers}
    (asked : answers.map (·.1) = parts.map join.statement)
    (conforms : ∀ keys rows, (join.statement keys, rows) ∈ answers →
      join.Answered kept (boundKeys keys) rows)
    (distinct : (boundKeys parts.flatten).Nodup) (key : String) :
    (answers.rows.filter fun row => rowKey join.foreignKey row = some key) =
      if key ∈ boundKeys parts.flatten then kept key else [] := by
  induction parts generalizing answers with
  | nil =>
      rw [List.map_nil, List.map_eq_nil_iff] at asked
      subst asked
      rfl
  | cons part parts ih =>
      obtain ⟨⟨statement, rows⟩, more, rfl, rfl, others⟩ := List.map_eq_cons_iff.1 asked
      rw [List.flatten_cons, boundKeys_append, List.nodup_append] at distinct
      obtain ⟨_, rest, apart⟩ := distinct
      have here := (conforms part rows List.mem_cons_self).filter key
      have there := ih others (fun keys rows member =>
        conforms keys rows (List.mem_cons_of_mem _ member)) rest
      rw [Answers.rows, List.flatMap_cons, List.filter_append, here, ← Answers.rows, there,
        List.flatten_cons, boundKeys_append]
      by_cases first : key ∈ boundKeys part
      · have notLater : key ∉ boundKeys parts.flatten := fun later => apart key first key later rfl
        rw [if_pos first, if_neg notLater, if_pos (List.mem_append_left _ first), List.append_nil]
      · rw [if_neg first, List.nil_append]
        simp only [List.mem_append, first, false_or]

theorem filter_unranked {rows : List Row} {key : String}
    (fetched : (rows.filter fun row => rowKey join.foreignKey row = some key) = kept key) :
    ((rows.map unranked).filter fun row => rowKey join.foreignKey row = some key) =
      join.keptFor kept key := by
  rw [keptFor, ← fetched, List.filter_map, List.filter_map, List.filter_filter]
  refine congrArg _ (List.filter_congr fun row _ => ?_)
  rw [Function.comp_apply, Bool.eq_iff_iff, Bool.and_eq_true, decide_eq_true_eq, decide_eq_true_eq]
  exact ⟨fun keyed => ⟨keyed, rowKey_of_unranked keyed⟩, And.left⟩

/-- A parent whose key is bound gets what is kept for its key. -/
theorem relatedTo_answers {answers : Answers} {parents : List Record}
    (asks : join.Asks (parentKeys join.localKey parents) answers)
    (conforms : ∀ keys rows, (join.statement keys, rows) ∈ answers →
      join.Answered kept (boundKeys keys) rows)
    (signed : ∀ parent ∈ parents, ∀ value ∈ parent.get? join.localKey, value.FitsSigned)
    {complete : Row → Record} (fields : ∀ row, (complete row).fields = row) {parent : Record}
    (present : parent ∈ parents) :
    join.relatedTo ((answers.rows.map unranked).map complete) parent.fields =
      join.attached kept complete parent.fields := by
  rw [relatedTo_eq_relate, attached, matching]
  cases keyed : rowKey join.localKey parent.fields with
  | none => rfl
  | some key =>
      have bound := mem_boundKeys signed present keyed
      have distinct := nodup_boundKeys signed
      rw [← flatten_batches (parentKeys join.localKey parents)] at bound distinct
      have fetched := filter_answers asks conforms distinct key
      rw [if_pos bound] at fetched
      have matched : (((answers.rows.map unranked).map complete).filter fun child =>
          rowKey join.foreignKey child.fields = some key) =
            (join.keptFor kept key).map complete := by
        rw [List.filter_map, ← filter_unranked fetched]
        refine congrArg _ (List.filter_congr fun row _ => ?_)
        rw [Function.comp_apply, fields]
      exact congrArg _ matched

end Join

/-! ## Loads -/

theorem map_zip_eq {ι π β : Type} {items : List ι} {parts : List π}
    (lengths : items.length = parts.length) {f : ι × π → β} {g : ι → β}
    (each : ∀ item ∈ items.zip parts, f item = g item.1) :
    (items.zip parts).map f = items.map g := by
  conv_rhs => rw [← List.map_fst_zip (Nat.le_of_eq lengths), List.map_map]
  exact List.map_congr_left each

theorem exchange_of_mem {answers : Answers} {statement : Sql.Statement} {rows : List Row}
    (member : (statement, rows) ∈ answers) :
    .query statement (.ok rows) ∈ answers.exchanges :=
  List.mem_map_of_mem member

section Loads

variable {plan : Plan} {kept : Kept} {log : List Exchange} {load : EagerLoad} {rows : List Row}
  {answers : LoadAnswers}

/-- Every row that came back for a load is kept for some key. -/
theorem exists_kept (conforming : Conforming plan kept log) (member : load ∈ plan.loads)
    (asks : load.Asks rows answers) (within : ∀ exchange ∈ answers.exchanges, exchange ∈ log)
    {row : Row} (fetched : row ∈ answers.own.rows) : ∃ key, row ∈ kept load.join key := by
  obtain ⟨⟨statement, reply⟩, answer, present⟩ := List.mem_flatMap.1 fetched
  have listed : statement ∈ answers.own.map (·.1) := List.mem_map_of_mem answer
  rw [asks.1] at listed
  obtain ⟨keys, _, rfl⟩ := List.mem_map.1 listed
  have answered := conforming.matching load member load.join List.mem_cons_self keys reply
    (within _ (List.mem_append_left _ (exchange_of_mem answer)))
  obtain ⟨key, asked, keyed⟩ := answered.only row present
  refine ⟨key, ?_⟩
  rw [← answered.each key asked, List.mem_filter]
  exact ⟨present, by simpa using keyed⟩

/-- The records of a load are its rows, each with what it gets itself. -/
theorem children_eq (conforming : Conforming plan kept log) (member : load ∈ plan.loads)
    (signed : SignedKeys plan kept rows) (asks : load.Asks rows answers)
    (within : ∀ exchange ∈ answers.exchanges, exchange ∈ log) :
    load.children answers = (answers.own.rows.map unranked).map (load.completed kept) := by
  rw [EagerLoad.children, List.map_map]
  refine List.map_congr_left fun row fetched => ?_
  refine congrArg (Record.of (unranked row)) (map_zip_eq asks.2.length_eq ?_)
  rintro ⟨join, part⟩ paired
  have nested : join ∈ load.nested := (List.of_mem_zip paired).1
  refine congrArg (join.name, ·) ?_
  have parents : ∀ parent ∈ answers.own.rows.map fetchedRecord,
      ∀ value ∈ parent.get? join.localKey, value.FitsSigned := by
    intro parent isRow value found
    obtain ⟨row, fetched, rfl⟩ := List.mem_map.1 isRow
    obtain ⟨key, isKept⟩ := exists_kept conforming member asks within fetched
    exact signed.nested load member join nested key row isKept value (get?_of_unranked found)
  have related := Join.relatedTo_answers (List.forall₂_zip asks.2 paired)
    (fun keys reply answer =>
      conforming.matching load member join (List.mem_cons_of_mem _ nested) keys reply
        (within _ (List.mem_append_right _ (List.mem_flatMap.2
          ⟨part, (List.of_mem_zip paired).2, exchange_of_mem answer⟩))))
    parents (fun _ => rfl : ∀ row, (Record.ofRow row).fields = row)
    (List.mem_map_of_mem fetched)
  rw [List.map_map] at related
  exact related

/-- What a row of the root gets from a load depends on that row alone. -/
theorem relatedTo_load (conforming : Conforming plan kept log) (member : load ∈ plan.loads)
    (signed : SignedKeys plan kept rows) (asks : load.Asks rows answers)
    (within : ∀ exchange ∈ answers.exchanges, exchange ∈ log) {row : Row} (present : row ∈ rows) :
    load.join.relatedTo (load.children answers) row = load.attached kept row := by
  rw [EagerLoad.attached]
  split
  next empty =>
    rw [children_of_isEmpty asks empty, Join.relatedTo_eq_relate]
    unfold Join.matching
    cases rowKey load.join.localKey row <;> rfl
  next notEmpty =>
    rw [children_eq conforming member signed asks within]
    have own := asks.1
    rw [if_neg notEmpty] at own
    refine Join.relatedTo_answers own
      (fun keys reply answer =>
        conforming.matching load member load.join List.mem_cons_self keys reply
          (within _ (List.mem_append_left _ (exchange_of_mem answer))))
      ?_ (fun _ => rfl) (List.mem_map_of_mem present : Record.ofRow row ∈ rows.map Record.ofRow)
    intro parent isRow value found
    obtain ⟨row, present, rfl⟩ := List.mem_map.1 isRow
    exact signed.root load member row present value found

end Loads

/-! ## Runs -/

theorem steady_fetchBatches (join : Join) (parts : List (List Parameter)) :
    (fetchBatches join parts).Steady := by
  induction parts with
  | nil => exact .pure _
  | cons part parts ih => exact .bind (.rows _) fun _ => ih.bind fun _ => .pure _

theorem steady_runJoin (join : Join) {nested : List Record → Session (List Record)}
    (steady : ∀ fetched, (nested fetched).Steady) (keys : List Parameter)
    (parents : List Record) : (runJoin join nested keys parents).Steady :=
  (steady_fetchBatches join _).bind fun fetched => (steady fetched).bind fun _ => .pure _

theorem steady_runNested (joins : List Join) (parents : List Record) :
    (runNested joins parents).Steady :=
  .foldlM (fun _ join => steady_runJoin join .pure _ _) joins parents

theorem steady_runLoad (parents : List Record) (load : EagerLoad) :
    (runLoad parents load).Steady :=
  steady_runJoin load.join (steady_runNested load.nested) _ _

/-- **Each row of the root gets its own relations.**  With a store that answers for each key what it
has for that key, the result says nothing about how the rows came together. -/
theorem run_attached {catalog : Catalog} {entity : String} {limits : Limits}
    {query : Request.Query} {plan : Plan}
    (accepted : compile catalog entity limits query = .ok plan) {kept : Kept} {rows : List Row}
    {silence : Reply} {replies : List Reply}
    (conforming : Conforming plan kept (plan.run.exchanges silence ({ rows } :: replies)))
    (signed : SignedKeys plan kept rows) :
    (plan.run.play silence ({ rows } :: replies)).result = .ok (rows.map (attached plan kept)) := by
  obtain ⟨root, _, distinct, resolved⟩ := loads_resolved accepted
  have each : ∀ load ∈ plan.loads, (load.nested.map (·.name)).Nodup := by
    intro load member
    obtain ⟨target, load⟩ := resolved load member
    exact load.distinct
  let loaded : Session (List Record) := plan.loads.foldlM runLoad (rows.map Record.ofRow)
  let rest : Session (List Record) := do
    let records ← loaded
    pure (records.map (·.without plan.hidden))
  have exchanges : plan.run.exchanges silence ({ rows } :: replies) =
      .query plan.statement (.ok rows) :: rest.exchanges silence replies := rfl
  change (rest.play silence replies).result = _
  have run := rest.runs_exchanges silence replies
  have steady : rest.Steady := (Session.Steady.foldlM steady_runLoad _ _).bind fun _ => .pure _
  obtain ⟨records, succeeds⟩ := steady.result_of_runs run fun exchange heard =>
    conforming.answered exchange (exchanges ▸ List.mem_cons_of_mem _ heard)
  rw [succeeds] at run ⊢
  obtain ⟨completed, front, back, heard, first, given⟩ := Session.Runs.of_bind_ok run
  obtain ⟨rfl, same⟩ := Session.Runs.of_pure given
  cases same
  obtain ⟨answers, asks, rfl, rfl⟩ := answers_of_loads distinct each first
  rw [List.append_nil] at heard
  refine congrArg Except.ok ?_
  rw [List.map_map]
  refine List.map_congr_left fun row present => ?_
  rw [Function.comp_apply, without_eq]
  refine congrArg (Record.of _) (map_zip_eq asks.length_eq ?_)
  rintro ⟨load, part⟩ paired
  have within : ∀ exchange ∈ part.exchanges,
      exchange ∈ plan.run.exchanges silence ({ rows } :: replies) := by
    intro exchange said
    rw [exchanges, heard]
    exact List.mem_cons_of_mem _
      (List.mem_flatMap.2 ⟨part, (List.of_mem_zip paired).2, said⟩)
  exact congrArg (load.join.name, ·)
    (relatedTo_load conforming (List.of_mem_zip paired).1 signed (List.forall₂_zip asks paired)
      within present)

/-! ## Two runs -/

/-- With one load, a store conforms if it answers each batch with what it has for the keys in it. -/
theorem conforming_single {plan : Plan} {load : EagerLoad} (loads : plan.loads = [load])
    (executed : load.isEmpty = false) (flat : load.nested = []) {rows : List Row}
    {parts : List (List Parameter)}
    (cut : batches (parentKeys load.join.localKey (rows.map Record.ofRow)) = parts)
    {answers : List (List Row)} (lengths : parts.length = answers.length) (silence : Reply)
    {kept : Kept}
    (each : ∀ item ∈ parts.zip answers,
      load.join.Answered (kept load.join) (boundKeys item.1) item.2) :
    Conforming plan kept (plan.run.exchanges silence ({ rows } :: repliesOf answers)) := by
  rw [exchanges_single loads executed flat cut lengths]
  constructor
  · refine List.forall_mem_cons.2 ⟨⟨rows, rfl⟩, fun exchange said => ?_⟩
    obtain ⟨item, _, rfl⟩ := List.mem_map.1 said
    exact ⟨item.2, rfl⟩
  · intro other member join inside keys reply said
    rw [loads, List.mem_singleton] at member
    rw [member, flat, List.mem_singleton] at inside
    subst inside
    rcases List.mem_cons.1 said with root | batch
    · cases root
    · obtain ⟨⟨part, answer⟩, paired, same⟩ := List.mem_map.1 batch
      have bound : part = keys ∧ answer = reply := by
        simpa [Join.statement] using same
      obtain ⟨rfl, rfl⟩ := bound
      exact each _ paired

/-- A store that keeps rows for one key only answers any keys with that one by these rows. -/
theorem Join.answered_single {join : Join} {key : String} {rows : List Row}
    (matched : ∀ row ∈ rows, rowKey join.foreignKey row = some key) {keys : List String}
    (asked : key ∈ keys) :
    join.Answered (fun other => if other = key then rows else []) keys rows where
  only row member := ⟨key, asked, matched row member⟩
  each other _ := by
    split
    next same =>
      subst same
      exact List.filter_eq_self.2 fun row member => by simpa using matched row member
    next different =>
      refine List.filter_eq_nil_iff.2 fun row member => ?_
      rw [matched row member]
      simpa using Ne.symm different

section OneKey

variable {plan : Plan} {load : EagerLoad} (loads : plan.loads = [load])
  (executed : load.isEmpty = false) (flat : load.nested = []) {rows : List Row}
  {parts : List (List Parameter)}
  (cut : batches (parentKeys load.join.localKey (rows.map Record.ofRow)) = parts)
  {key : String} {answer : List Row}
  (matched : ∀ row ∈ answer, rowKey load.join.foreignKey row = some key) (silence : Reply)

include loads executed flat cut matched

/-- Such a store conforms when all batches have that key. -/
theorem conforming_of_one_key (asked : ∀ part ∈ parts, key ∈ boundKeys part) :
    Conforming plan (fun _ other => if other = key then answer else [])
      (plan.run.exchanges silence ({ rows } :: repliesOf (parts.map fun _ => answer))) := by
  have lengths : parts.length = (parts.map fun _ => answer).length := by simp
  refine conforming_single loads executed flat cut lengths silence fun item paired => ?_
  have bound := asked item.1 (List.of_mem_zip paired).1
  obtain ⟨_, _, same⟩ := List.mem_map.1 (List.of_mem_zip paired).2
  rw [← same]
  exact Join.answered_single matched bound

/-- A parent with that key gets these rows once for every batch. -/
theorem length_of_one_key (many : load.join.cardinality = .many)
    (whole : ∀ row ∈ answer, unranked row = row) {i : Nat} {parent : Row}
    (place : rows[i]? = some parent) (keyed : rowKey load.join.localKey parent = some key) :
    ∃ records,
      (plan.run.play silence ({ rows } :: repliesOf (parts.map fun _ => answer))).result =
        .ok records ∧
          (records[i]?.map fun record => (record.many load.join.name).length) =
            some (parts.length * answer.length) := by
  have lengths : parts.length = (parts.map fun _ => answer).length := by simp
  refine ⟨_, result_single loads executed flat cut lengths silence, ?_⟩
  have unmarked : ∀ row ∈ (parts.map fun _ => answer).flatten,
      rowKey load.join.foreignKey (unranked row) = some key := by
    intro row member
    obtain ⟨fetched, listed, present⟩ := List.mem_flatten.1 member
    obtain ⟨_, _, rfl⟩ := List.mem_map.1 listed
    rw [whole row present]
    exact matched row present
  rw [List.getElem?_map, place, Option.map_some, Option.map_some,
    relatedTo_of_matching many unmarked keyed]
  simp [Record.many, Record.relation?, Record.relations, Ordered.get?]

end OneKey

/-- **Relations are local.**  Two runs against what one store has give the same record for the same
row of the root, with the same relations, whatever other rows there are. -/
theorem relations_local {catalog : Catalog} {entity : String} {limits : Limits}
    {query : Request.Query} {plan : Plan}
    (accepted : compile catalog entity limits query = .ok plan) {kept : Kept}
    {rows others : List Row} {silence silence' : Reply} {replies replies' : List Reply}
    (conforming : Conforming plan kept (plan.run.exchanges silence ({ rows } :: replies)))
    (conforming' :
      Conforming plan kept (plan.run.exchanges silence' ({ rows := others } :: replies')))
    (signed : SignedKeys plan kept rows) (signed' : SignedKeys plan kept others) :
    ∃ records records',
      (plan.run.play silence ({ rows } :: replies)).result = .ok records ∧
        (plan.run.play silence' ({ rows := others } :: replies')).result = .ok records' ∧
          ∀ (i j : Nat) (row : Row), rows[i]? = some row → others[j]? = some row →
            ∃ record, records[i]? = some record ∧ records'[j]? = some record := by
  refine ⟨_, _, run_attached accepted conforming signed, run_attached accepted conforming' signed',
    fun i j row first second => ⟨attached plan kept row, ?_, ?_⟩⟩
  · rw [List.getElem?_map, first, Option.map_some]
  · rw [List.getElem?_map, second, Option.map_some]

/-- A post is loaded with its comment, together with another post and alone. -/
theorem relations_local_posts :
    let catalog := Catalog.ofList
      [{ name := "Post", table := "posts",
         relations := [.oneToMany "comments" "Comment" "post_id"] },
       { name := "Comment", table := "comments" }]
    let query := ({} : Request.Query).withLoad { relation := "comments" }
    let other : Row := [("id", .string "a")]
    let shared : Row := [("id", .string "b")]
    let answer : Reply := { rows := [[("post_id", .string "b")]] }
    ∃ plan record records records', compile catalog "Post" {} query = .ok plan ∧
      (plan.run.play {} [{ rows := [other, shared] }, answer]).result = .ok records ∧
        (plan.run.play {} [{ rows := [shared] }, answer]).result = .ok records' ∧
          records[1]? = some record ∧ records'[0]? = some record := by
  intro catalog query other shared answer
  have accepted : ∃ plan load, compile catalog "Post" {} query = .ok plan ∧
      plan.loads = [load] ∧ load.isEmpty = false ∧ load.nested = [] ∧
        load.join.localKey = "id" ∧ load.join.foreignKey = "post_id" :=
    ⟨_, _, rfl, rfl, rfl, rfl, rfl, rfl⟩
  obtain ⟨plan, load, accepted, loads, executed, flat, localKey, foreignKey⟩ := accepted
  let kept : Kept := fun _ key => if key = "s:b" then answer.rows else []
  have conforming : ∀ rows : List Row, parentKeys "id" (rows.map Record.ofRow) ≠ [] →
      (parentKeys "id" (rows.map Record.ofRow)).length ≤ batchSize →
        "s:b" ∈ boundKeys (parentKeys "id" (rows.map Record.ofRow)) →
          Conforming plan kept (plan.run.exchanges {} [{ rows }, answer]) := by
    intro rows someKey few bound
    have cut : batches (parentKeys load.join.localKey (rows.map Record.ofRow)) =
        [parentKeys "id" (rows.map Record.ofRow)] := by
      rw [localKey, batches_of_le someKey few]
    refine conforming_of_one_key loads executed flat cut (fun row member => ?_) {}
      (List.forall_mem_singleton.2 bound)
    rw [foreignKey, List.mem_singleton.1 member]
    rfl
  have signed : ∀ names : List String,
      SignedKeys plan kept (names.map fun name => [("id", .string name)]) := by
    intro names
    constructor
    · intro load' member row present value found
      rw [loads, List.mem_singleton] at member
      rw [member, localKey] at found
      obtain ⟨name, _, rfl⟩ := List.mem_map.1 present
      cases found
      trivial
    · intro load' member join nested
      rw [loads, List.mem_singleton] at member
      rw [member, flat] at nested
      cases nested
  obtain ⟨records, records', succeeds, succeeds', same⟩ :=
    relations_local accepted (conforming [other, shared] (by decide) (by decide) (by decide))
      (conforming [shared] (by decide) (by decide) (by decide))
      (signed ["a", "b"]) (signed ["b"])
  obtain ⟨record, first, second⟩ := same 1 0 shared rfl rfl
  exact ⟨plan, record, records, records', accepted, succeeds, succeeds', first, second⟩

/-! ## Keys that are rounded -/

/-- The greatest word, which is beyond the signed ones. -/
def greatest : Json.Value :=
  .ofUInt64 0xFFFFFFFFFFFFFFFF

/-- The double that the greatest word is bound as. -/
def rounded : Json.Value :=
  (Parameter.ofJson greatest).toJson

theorem matchKey?_greatest : matchKey? greatest = some "18446744073709551615" := by
  decide +kernel

theorem matchKey?_rounded : matchKey? rounded = some "1.8446744073709552e+19" := by
  decide +kernel

/-- They are told apart, but bound alike. -/
theorem ofJson_rounded : Parameter.ofJson rounded = Parameter.ofJson greatest :=
  Parameter.ofJson_toJson_ofJson greatest

/-- Enough texts to fill a batch together with one more key. -/
def fillers : List String :=
  (List.range (batchSize - 1)).map fun n => String.ofList (List.replicate n 'x')

theorem length_fillers : fillers.length = batchSize - 1 := by
  rw [fillers, List.length_map, List.length_range]

theorem nodup_fillers : fillers.Nodup := by
  refine List.Nodup.map (fun n m same => ?_) List.nodup_range
  simpa using congrArg (fun s => s.toList.length) same

/-- Both keys, with a batch between them. -/
def crowd : List Json.Value :=
  rounded :: (fillers.map Json.Value.string ++ [greatest])

/-- The match keys in the crowd. -/
def crowdKeys : List String :=
  "1.8446744073709552e+19" :: (fillers.map ("s:" ++ ·) ++ ["18446744073709551615"])

theorem matchKeys_crowd : crowd.map matchKey? = crowdKeys.map some := by
  simp only [crowd, crowdKeys, List.map_cons, List.map_append, List.map_map, List.map_nil,
    matchKey?_greatest, matchKey?_rounded]
  rfl

/-- All of them differ, so all are bound. -/
theorem nodup_crowdKeys : crowdKeys.Nodup := by
  have apart : ∀ key : String, key.toList.head? ≠ some 's' → key ∉ fillers.map ("s:" ++ ·) := by
    intro key other filler
    obtain ⟨text, _, rfl⟩ := List.mem_map.1 filler
    rw [String.toList_append] at other
    exact other rfl
  have texts : (fillers.map ("s:" ++ ·)).Nodup := by
    refine nodup_fillers.map fun s t same => ?_
    have chars := congrArg String.toList same
    rw [String.toList_append, String.toList_append] at chars
    exact String.toList_injective (List.append_cancel_left chars)
  refine List.nodup_cons.2 ⟨?_, ?_⟩
  · rw [List.mem_append, not_or]
    exact ⟨apart _ (by decide), by decide⟩
  · rw [← List.concat_eq_append]
    exact texts.concat (apart _ (by decide))

theorem batches_crowd (column : String) :
    batches (parentKeys column ((crowd.map fun value => [(column, value)]).map Record.ofRow)) =
      [Parameter.ofJson greatest :: fillers.map Parameter.text, [Parameter.ofJson greatest]] := by
  have bound : crowd.map Parameter.ofJson =
      (Parameter.ofJson greatest :: fillers.map Parameter.text) ++ [Parameter.ofJson greatest] := by
    simp only [crowd, List.map_cons, List.map_append, List.map_map, List.map_nil, ofJson_rounded]
    rfl
  have full : (Parameter.ofJson greatest :: fillers.map Parameter.text).length = batchSize := by
    rw [List.length_cons, List.length_map, length_fillers]
    rfl
  rw [parentKeys_of_nodup matchKeys_crowd nodup_crowdKeys, bound, batches_append full,
    batches_of_le (List.cons_ne_nil _ []) (Nat.le_add_left 1 499)]

/-- A user whose key is a double has one post.  Among more users it has the post twice: another
key, an integer in a later batch, is bound as the same double. -/
theorem relations_not_local :
    let catalog := Catalog.ofList
      [{ name := "User", table := "users", relations := [.oneToMany "posts" "Post" "user_id"] },
       { name := "Post", table := "posts" }]
    let query := ({} : Request.Query).withLoad { relation := "posts" }
    let users (keys : List Json.Value) : Reply := { rows := keys.map fun key => [("id", key)] }
    let answer : Reply := { rows := [[("user_id", rounded)]] }
    ∃ plan kept records records', compile catalog "User" {} query = .ok plan ∧
      Conforming plan kept (plan.run.exchanges {} [users crowd, answer, answer]) ∧
        Conforming plan kept (plan.run.exchanges {} [users [rounded], answer]) ∧
          (plan.run.play {} [users crowd, answer, answer]).result = .ok records ∧
            (plan.run.play {} [users [rounded], answer]).result = .ok records' ∧
              (records[0]?.map fun record => (record.many "posts").length) = some 2 ∧
                (records'[0]?.map fun record => (record.many "posts").length) = some 1 := by
  intro catalog query users answer
  have accepted : ∃ plan load, compile catalog "User" {} query = .ok plan ∧
      plan.loads = [load] ∧ load.isEmpty = false ∧ load.nested = [] ∧
        load.join.localKey = "id" ∧ load.join.foreignKey = "user_id" ∧
          load.join.name = "posts" ∧ load.join.cardinality = .many :=
    ⟨_, _, rfl, rfl, rfl, rfl, rfl, rfl, rfl, rfl⟩
  obtain ⟨plan, load, accepted, loads, executed, flat, localKey, foreignKey, name, many⟩ := accepted
  have together : batches (parentKeys load.join.localKey ((users crowd).rows.map Record.ofRow)) =
      [Parameter.ofJson greatest :: fillers.map Parameter.text, [Parameter.ofJson greatest]] :=
    localKey ▸ batches_crowd "id"
  have alone : batches (parentKeys load.join.localKey ((users [rounded]).rows.map Record.ofRow)) =
      [[Parameter.ofJson greatest]] := by
    have matched : [rounded].map matchKey? = ["1.8446744073709552e+19"].map some := by
      rw [List.map_singleton, matchKey?_rounded, List.map_singleton]
    rw [localKey, parentKeys_of_nodup matched (List.nodup_singleton _), List.map_singleton,
      ofJson_rounded,
      batches_of_le (List.cons_ne_nil _ []) (Nat.le_add_left 1 499)]
  have asked : ∀ later,
      "1.8446744073709552e+19" ∈ boundKeys (Parameter.ofJson greatest :: later) := by
    intro later
    have first : matchKey? (Parameter.ofJson greatest).toJson = some "1.8446744073709552e+19" :=
      matchKey?_rounded
    rw [boundKeys, List.filterMap_cons, first]
    exact List.mem_cons_self
  have matched : ∀ row ∈ answer.rows,
      rowKey load.join.foreignKey row = some "1.8446744073709552e+19" := by
    intro row member
    rw [foreignKey, List.mem_singleton.1 member, rowKey_singleton, matchKey?_rounded]
  have whole : ∀ row ∈ answer.rows, unranked row = row := by
    intro row member
    rw [List.mem_singleton.1 member]
    exact List.filter_eq_self.2 (List.forall_mem_singleton.2 (by decide))
  have keyed : rowKey load.join.localKey [("id", rounded)] = some "1.8446744073709552e+19" := by
    rw [localKey, rowKey_singleton, matchKey?_rounded]
  obtain ⟨records, fetched, twice⟩ :=
    length_of_one_key loads executed flat together matched {} many whole
      (rfl : (users crowd).rows[0]? = some [("id", rounded)]) keyed
  obtain ⟨records', fetched', once⟩ :=
    length_of_one_key loads executed flat alone matched {} many whole
      (rfl : (users [rounded]).rows[0]? = some [("id", rounded)]) keyed
  rw [name] at twice once
  exact ⟨plan, _, records, records', accepted,
    conforming_of_one_key loads executed flat together matched {}
      (List.forall_mem_cons.2 ⟨asked _, List.forall_mem_singleton.2 (asked [])⟩),
    conforming_of_one_key loads executed flat alone matched {}
      (List.forall_mem_singleton.2 (asked [])),
    fetched, fetched', twice, once⟩

end Plan

end RequestQuery
