/-
# Running a plan is a nested loop

A run collects keys without repetitions, cuts them into batches, completes what it has fetched and
hands it out by groups.  None of this shows in the result: `joined` is the plain nested loop over
the rows that came back, which gives each parent the rows with its own match key, and every run that
succeeds gives exactly that (`run_joined`).

`EagerLoad.Asks` tells which statements the rows of a load came back for.
-/
import RequestQuery.Plan.Run
import RequestQuery.Proofs.Plan.Resolution
import RequestQuery.Proofs.Session

namespace RequestQuery.Plan

set_option autoImplicit false

/-! ## The nested loop -/

/-- Statements with the rows that came back for them. -/
abbrev Answers := List (Sql.Statement × List Row)

def Answers.rows (answers : Answers) : List Row :=
  answers.flatMap (·.2)

def Answers.exchanges (answers : Answers) : List Exchange :=
  answers.map fun item => .query item.1 (.ok item.2)

/-- What came back for a load: for its own statements, and for each join nested in it. -/
structure LoadAnswers where
  own : Answers
  nested : List Answers

def LoadAnswers.exchanges (answers : LoadAnswers) : List Exchange :=
  answers.own.exchanges ++ answers.nested.flatMap Answers.exchanges

/-- The match key of a column of a row. -/
def rowKey (column : String) (row : Row) : Option String :=
  (Ordered.get? row column).bind matchKey?

/-- The children whose foreign key matches the local key of a parent, in their order; a parent
without a key has none. -/
def Join.matching (join : Join) (children : List Record) (parent : Row) : List Record :=
  match rowKey join.localKey parent with
  | some key => children.filter fun child => rowKey join.foreignKey child.fields = some key
  | none => []

/-- All matching children, or the first one where a parent can have only one. -/
def Join.relatedTo (join : Join) (children : List Record) (parent : Row) : Related :=
  match join.cardinality with
  | .many => .many (join.matching children parent)
  | .one => .one (join.matching children parent).head?

def unranked (row : Row) : Row :=
  row.filter fun column => column.1 ≠ Sql.rankColumn

/-- The records that came back for a load, each with the records related to it in turn. -/
def EagerLoad.children (load : EagerLoad) (answers : LoadAnswers) : List Record :=
  answers.own.rows.map fun row =>
    .of (unranked row)
      ((load.nested.zip answers.nested).map fun item =>
        (item.1.name,
          item.1.relatedTo (item.2.rows.map fun row => .of (unranked row) []) (unranked row)))

/-- The rows of the root, without the hidden columns, and what each is related to. -/
def joined (plan : Plan) (rows : List Row) (answers : List LoadAnswers) : List Record :=
  rows.map fun row =>
    .of (row.filter fun column => column.1 ∉ plan.hidden)
      ((plan.loads.zip answers).map fun item =>
        (item.1.join.name, item.1.join.relatedTo (item.1.children item.2) row))

/-! ## What is asked for -/

/-- A join is asked for once for each batch of keys. -/
def Join.Asks (join : Join) (keys : List Parameter) (answers : Answers) : Prop :=
  answers.map (·.1) = (batches keys).map join.statement

/-- A load is asked for by the keys of its parents, unless it is known to be empty, and the joins
nested in it by the keys of the records that came back for it. -/
def EagerLoad.Asks (load : EagerLoad) (parents : List Row) (answers : LoadAnswers) : Prop :=
  load.join.Asks
      (if load.isEmpty then [] else parentKeys load.join.localKey (parents.map Record.ofRow))
      answers.own ∧
    List.Forall₂
      (fun join part =>
        join.Asks (parentKeys join.localKey (answers.own.rows.map fetchedRecord)) part)
      load.nested answers.nested

/-! ## Groups -/

/-- A group has the records with its key, in their order. -/
theorem get?_groupRecords (column key : String) (records : List Record) :
    ((groupRecords column records).get? key).getD [] =
      records.filter fun record => keyOf column record = some key := by
  suffices ∀ groups : Ordered (List Record),
      ((records.foldl (fun groups record =>
          match keyOf column record with
          | some key => groups.put key ((groups.get? key).getD [] ++ [record])
          | none => groups) groups).get? key).getD [] =
        (groups.get? key).getD [] ++
          records.filter fun record => keyOf column record = some key from
    this []
  induction records with
  | nil => simp
  | cons record records ih =>
      intro groups
      rw [List.foldl_cons, ih]
      cases found : keyOf column record with
      | none => simp [found]
      | some other =>
          by_cases same : other = key
          · subst same
            simp [found, Ordered.get?_put]
          · simp [found, Ordered.get?_put, same]

theorem Join.relatedTo_eq_relate (join : Join) (children : List Record) (parent : Row) :
    join.relatedTo children parent = relate join.cardinality (join.matching children parent) := by
  unfold relatedTo relate
  cases join.cardinality <;> rfl

/-- What a parent is given is what a search through all children would find. -/
theorem attachGroup_eq (join : Join) (children : List Record) (parent : Record) :
    attachGroup join (groupRecords join.foreignKey children) parent =
      parent.withRelation join.name (join.relatedTo children parent.fields) := by
  have matched : ((keyOf join.localKey parent).bind
      (groupRecords join.foreignKey children).get?).getD [] =
        join.matching children parent.fields := by
    unfold Join.matching
    change _ = match keyOf join.localKey parent with
      | some key => children.filter fun child => keyOf join.foreignKey child = some key
      | none => []
    cases keyOf join.localKey parent with
    | none => rfl
    | some key => exact get?_groupRecords join.foreignKey key children
  rw [Join.relatedTo_eq_relate, ← matched]
  rfl

theorem parentKeys_fields (column : String) (parents : List Record) :
    parentKeys column parents =
      parentKeys column ((parents.map Record.fields).map Record.ofRow) := by
  simp only [parentKeys, List.map_map, List.filterMap_map]
  rfl

/-! ## One join -/

theorem answers_of_fetchBatches {join : Join} {parts : List (List Parameter)}
    {log : List Exchange} {fetched : List Record}
    (run : (fetchBatches join parts).Runs log (.ok fetched)) :
    ∃ answers : Answers, answers.map (·.1) = parts.map join.statement ∧
      log = answers.exchanges ∧ fetched = answers.rows.map fetchedRecord := by
  induction parts generalizing log fetched with
  | nil =>
      obtain ⟨rfl, same⟩ := Session.Runs.of_pure run
      cases same
      exact ⟨[], rfl, rfl, rfl⟩
  | cons part parts ih =>
      obtain ⟨rows, front, back, rfl, asked, others⟩ := Session.Runs.of_bind_ok run
      obtain ⟨more, middle, last, rfl, rest, given⟩ := Session.Runs.of_bind_ok others
      obtain ⟨rfl, same⟩ := Session.Runs.of_pure given
      cases same
      obtain ⟨answers, statements, rfl, rfl⟩ := ih rest
      refine ⟨(join.statement part, rows) :: answers, by simp [statements], ?_, ?_⟩
      · rw [Session.Runs.of_rows asked]
        simp [Answers.exchanges]
      · simp [Answers.rows]

theorem answers_of_runJoin {join : Join} {nested : List Record → Session (List Record)}
    {keys : List Parameter} {parents : List Record} {log : List Exchange} {result : List Record}
    (run : (runJoin join nested keys parents).Runs log (.ok result)) :
    ∃ (answers : Answers) (children : List Record) (rest : List Exchange),
      join.Asks keys answers ∧ log = answers.exchanges ++ rest ∧
        (nested (answers.rows.map fetchedRecord)).Runs rest (.ok children) ∧
          result = parents.map fun parent =>
            parent.withRelation join.name (join.relatedTo children parent.fields) := by
  obtain ⟨fetched, front, back, rfl, batched, others⟩ := Session.Runs.of_bind_ok run
  obtain ⟨children, middle, last, rfl, completed, given⟩ := Session.Runs.of_bind_ok others
  obtain ⟨rfl, same⟩ := Session.Runs.of_pure given
  cases same
  obtain ⟨answers, asks, rfl, rfl⟩ := answers_of_fetchBatches batched
  refine ⟨answers, children, middle, asks, by rw [List.append_nil], completed, ?_⟩
  exact List.map_congr_left fun parent _ => attachGroup_eq join children parent

/-! ## Joins one after the other -/

section Attaching

variable {ι π : Type} {step : List Record → ι → Session (List Record)} {name : ι → String}
  {exchanges : π → List Exchange} (value : ι → π → Row → Related) (asks : ι → List Row → π → Prop)

/-- Steps that each relate something to every parent, under names of their own, leave the fields of
the parents alone, so each of them is asked for as if it were the first. -/
theorem attached_of_foldlM {items : List ι}
    (attaches : ∀ item ∈ items, ∀ {parents : List Record} {log : List Exchange}
      {result : List Record}, (step parents item).Runs log (.ok result) →
        ∃ part, asks item (parents.map Record.fields) part ∧ log = exchanges part ∧
          result = parents.map fun parent =>
            parent.withRelation (name item) (value item part parent.fields))
    (distinct : (items.map name).Nodup) {parents : List Record}
    (fresh : ∀ parent ∈ parents, ∀ item ∈ items, name item ∉ parent.relations.names)
    {log : List Exchange} {result : List Record}
    (run : (items.foldlM step parents).Runs log (.ok result)) :
    ∃ parts,
      List.Forall₂ (fun item part => asks item (parents.map Record.fields) part) items parts ∧
        log = parts.flatMap exchanges ∧
          result = parents.map fun parent =>
            .of parent.fields
              (parent.relations ++
                (items.zip parts).map fun item =>
                  (name item.1, value item.1 item.2 parent.fields)) := by
  induction items generalizing parents log with
  | nil =>
      obtain ⟨rfl, same⟩ := Session.Runs.of_pure run
      cases same
      refine ⟨[], .nil, rfl, ?_⟩
      conv_lhs => rw [← List.map_id result]
      refine List.map_congr_left fun parent _ => ?_
      cases parent
      simp [Record.fields, Record.relations]
  | cons item items ih =>
      rw [List.foldlM_cons] at run
      obtain ⟨next, front, back, rfl, first, others⟩ := Session.Runs.of_bind_ok run
      rw [List.forall_mem_cons] at attaches
      obtain ⟨part, asked, rfl, rfl⟩ := attaches.1 first
      rw [List.map_cons, List.nodup_cons] at distinct
      have fields : (parents.map fun parent =>
          parent.withRelation (name item) (value item part parent.fields)).map Record.fields =
            parents.map Record.fields := by
        rw [List.map_map]
        rfl
      have placed : ∀ parent ∈ parents,
          (parent.withRelation (name item) (value item part parent.fields)).relations =
            parent.relations ++ [(name item, value item part parent.fields)] :=
        fun parent member =>
          Ordered.put_of_not_mem _ (fresh parent member item List.mem_cons_self)
      have stillFresh : ∀ changed ∈ parents.map (fun parent =>
          parent.withRelation (name item) (value item part parent.fields)),
          ∀ other ∈ items, name other ∉ changed.relations.names := by
        intro changed member other later
        obtain ⟨parent, present, rfl⟩ := List.mem_map.1 member
        rw [placed parent present, Ordered.names, List.map_append, List.mem_append, not_or]
        refine ⟨fresh parent present other (List.mem_cons_of_mem item later), fun same => ?_⟩
        have repeated : name other = name item := List.mem_singleton.1 same
        exact distinct.1 (repeated ▸ List.mem_map_of_mem later)
      obtain ⟨parts, asks, rfl, rfl⟩ := ih attaches.2 distinct.2 stillFresh others
      rw [fields] at asks
      refine ⟨part :: parts, .cons asked asks, rfl, ?_⟩
      rw [List.map_map]
      refine List.map_congr_left fun parent member => ?_
      simp only [Function.comp_apply, placed parent member, List.append_assoc, List.zip_cons_cons,
        List.map_cons]
      rfl

end Attaching

theorem attaches_nested {join : Join} {parents : List Record} {log : List Exchange}
    {result : List Record}
    (run : (runJoin join pure (parentKeys join.localKey parents) parents).Runs log (.ok result)) :
    ∃ part : Answers,
      join.Asks (parentKeys join.localKey ((parents.map Record.fields).map Record.ofRow)) part ∧
        log = part.exchanges ∧
          result = parents.map fun parent =>
            parent.withRelation join.name
              (join.relatedTo (part.rows.map fetchedRecord) parent.fields) := by
  obtain ⟨part, children, rest, asks, rfl, given, rfl⟩ := answers_of_runJoin run
  obtain ⟨rfl, same⟩ := Session.Runs.of_pure given
  cases same
  rw [parentKeys_fields] at asks
  exact ⟨part, asks, by rw [List.append_nil], rfl⟩

theorem attaches_load {load : EagerLoad} (distinct : (load.nested.map (·.name)).Nodup)
    {parents : List Record} {log : List Exchange} {result : List Record}
    (run : (runLoad parents load).Runs log (.ok result)) :
    ∃ part : LoadAnswers, load.Asks (parents.map Record.fields) part ∧
      log = part.exchanges ∧
        result = parents.map fun parent =>
          parent.withRelation load.join.name
            (load.join.relatedTo (load.children part) parent.fields) := by
  obtain ⟨own, children, rest, asks, rfl, completed, rfl⟩ := answers_of_runJoin run
  have fresh : ∀ record ∈ own.rows.map fetchedRecord, ∀ join ∈ load.nested,
      join.name ∉ record.relations.names := by
    intro record member join _
    obtain ⟨row, _, rfl⟩ := List.mem_map.1 member
    exact List.not_mem_nil
  obtain ⟨nested, others, rfl, rfl⟩ :=
    attached_of_foldlM
      (fun join part fields => join.relatedTo (part.rows.map fetchedRecord) fields)
      (fun join rows part => join.Asks (parentKeys join.localKey (rows.map Record.ofRow)) part)
      (fun _ _ => attaches_nested) distinct fresh completed
  rw [parentKeys_fields] at asks
  refine ⟨⟨own, nested⟩, ⟨asks, ?_⟩, rfl, ?_⟩
  · rw [List.map_map, List.map_map] at others
    exact others
  · have joined : (own.rows.map fetchedRecord).map (fun record => Record.of record.fields
        (record.relations ++ (load.nested.zip nested).map fun item =>
          (item.1.name,
            item.1.relatedTo (item.2.rows.map fetchedRecord) record.fields))) =
          load.children ⟨own, nested⟩ := by
      rw [List.map_map]
      rfl
    rw [joined]

/-! ## The whole run -/

theorem without_eq (record : Record) (columns : List String) :
    record.without columns =
      .of (record.fields.filter fun column => column.1 ∉ columns) record.relations := by
  have removed : ∀ fields : Row, columns.foldl Ordered.remove fields =
      fields.filter fun column => column.1 ∉ columns := by
    induction columns with
    | nil => simp
    | cons column columns ih =>
        intro fields
        rw [List.foldl_cons, ih, Ordered.remove, List.filter_filter]
        refine List.filter_congr fun entry _ => ?_
        simp [Bool.and_comm]
  rw [Record.without, removed]

/-- The loads of a plan are asked for one after the other, each for the rows of the root. -/
theorem answers_of_loads {loads : List EagerLoad} (distinct : (loads.map (·.join.name)).Nodup)
    (each : ∀ load ∈ loads, (load.nested.map (·.name)).Nodup) {rows : List Row}
    {log : List Exchange} {result : List Record}
    (run : (loads.foldlM runLoad (rows.map Record.ofRow)).Runs log (.ok result)) :
    ∃ answers : List LoadAnswers,
      List.Forall₂ (fun load part => load.Asks rows part) loads answers ∧
        log = answers.flatMap LoadAnswers.exchanges ∧
          result = rows.map fun row =>
            .of row ((loads.zip answers).map fun item =>
              (item.1.join.name, item.1.join.relatedTo (item.1.children item.2) row)) := by
  have fresh : ∀ record ∈ rows.map Record.ofRow, ∀ load ∈ loads,
      load.join.name ∉ record.relations.names := by
    intro record member load _
    obtain ⟨row, _, rfl⟩ := List.mem_map.1 member
    exact List.not_mem_nil
  obtain ⟨answers, asks, rfl, rfl⟩ :=
    attached_of_foldlM
      (fun load part fields => load.join.relatedTo (load.children part) fields)
      (fun load rows part => load.Asks rows part)
      (fun load member => attaches_load (each load member)) distinct fresh run
  have same : (rows.map Record.ofRow).map Record.fields = rows := by
    rw [List.map_map]
    exact List.map_id rows
  rw [same] at asks
  refine ⟨answers, asks, rfl, ?_⟩
  rw [List.map_map]
  rfl

/-- What is joined carries the relations of the plan, in their order. -/
theorem relationNames_joined (plan : Plan) (rows : List Row) {answers : List LoadAnswers}
    (lengths : plan.loads.length = answers.length) :
    ∀ record ∈ joined plan rows answers, record.relations.names = plan.relationNames := by
  intro record member
  obtain ⟨row, _, rfl⟩ := List.mem_map.1 member
  have loads : (plan.loads.zip answers).map Prod.fst = plan.loads :=
    List.map_fst_zip (Nat.le_of_eq lengths)
  have names := congrArg (List.map fun load => load.join.name) loads
  rw [List.map_map] at names
  simp only [Record.relations, Ordered.names, List.map_map]
  exact names

/-- A load that is known to be empty is not asked for, so it relates nothing. -/
theorem children_of_isEmpty {load : EagerLoad} {rows : List Row} {answers : LoadAnswers}
    (asks : load.Asks rows answers) (empty : load.isEmpty = true) :
    load.children answers = [] := by
  have nothing : answers.own = [] := by
    have statements := asks.1
    rw [if_pos empty, Join.Asks, batches, List.map_nil] at statements
    exact List.map_eq_nil_iff.1 statements
  rw [EagerLoad.children, nothing]
  rfl

/-- What is said in a run that succeeds, and what comes of it. -/
theorem joined_of_runs {catalog : Catalog} {entity : String} {limits : Limits}
    {query : Request.Query} {plan : Plan}
    (accepted : compile catalog entity limits query = .ok plan) {log : List Exchange}
    {records : List Record} (run : plan.run.Runs log (.ok records)) :
    ∃ (rows : List Row) (answers : List LoadAnswers),
      List.Forall₂ (fun load part => load.Asks rows part) plan.loads answers ∧
        log = .query plan.statement (.ok rows) :: answers.flatMap LoadAnswers.exchanges ∧
          records = joined plan rows answers := by
  obtain ⟨root, _, distinct, resolved⟩ := loads_resolved accepted
  have each : ∀ load ∈ plan.loads, (load.nested.map (·.name)).Nodup := by
    intro load member
    obtain ⟨target, load⟩ := resolved load member
    exact load.distinct
  cases run with
  | query answer after =>
      cases answer with
      | error failure => cases after
      | ok rows =>
          obtain ⟨completed, front, back, rfl, loaded, given⟩ := Session.Runs.of_bind_ok after
          obtain ⟨rfl, same⟩ := Session.Runs.of_pure given
          cases same
          obtain ⟨answers, asks, rfl, rfl⟩ := answers_of_loads distinct each loaded
          refine ⟨rows, answers, asks, by rw [List.append_nil], ?_⟩
          rw [List.map_map]
          exact List.map_congr_left fun row _ => without_eq _ plan.hidden

/-- **A run that succeeds is the nested loop over what came back.**  The root statement is asked
for first and then each load by itself, and the result is `joined` of the rows of all of them. -/
theorem run_joined {catalog : Catalog} {entity : String} {limits : Limits}
    {query : Request.Query} {plan : Plan}
    (accepted : compile catalog entity limits query = .ok plan) {silence : Reply}
    {replies : List Reply} {records : List Record}
    (succeeds : (plan.run.play silence replies).result = .ok records) :
    ∃ (rows : List Row) (answers : List LoadAnswers),
      plan.run.exchanges silence replies =
          .query plan.statement (.ok rows) :: answers.flatMap LoadAnswers.exchanges ∧
        List.Forall₂ (fun load part => load.Asks rows part) plan.loads answers ∧
          records = joined plan rows answers ∧
            (∀ record ∈ records, record.relations.names = plan.relationNames) ∧
              ∀ item ∈ plan.loads.zip answers, item.1.isEmpty = true →
                item.1.children item.2 = [] := by
  have run := plan.run.runs_exchanges silence replies
  rw [succeeds] at run
  obtain ⟨rows, answers, asks, said, rfl⟩ := joined_of_runs accepted run
  exact ⟨rows, answers, said, asks, rfl, relationNames_joined plan rows asks.length_eq,
    fun _ member => children_of_isEmpty (List.forall₂_zip asks member)⟩

/-- Two posts are loaded with the comments of the second one. -/
theorem run_joined_posts :
    let catalog := Catalog.ofList
      [{ name := "Post", table := "posts",
         relations := [.oneToMany "comments" "Comment" "post_id"] },
       { name := "Comment", table := "comments" }]
    let query := ({} : Request.Query).withLoad { relation := "comments" }
    let replies : List Reply :=
      [{ rows := [[("id", .string "a")], [("id", .string "b")]] },
       { rows := [[("post_id", .string "b")]] }]
    ∃ plan records rows answers, compile catalog "Post" {} query = .ok plan ∧
      (plan.run.play {} replies).result = .ok records ∧ records = joined plan rows answers := by
  intro catalog query replies
  have accepted : ∃ plan, compile catalog "Post" {} query = .ok plan ∧
      (plan.run.play {} replies).result.toBool = true := ⟨_, rfl, by decide +kernel⟩
  obtain ⟨plan, accepted, finished⟩ := accepted
  cases succeeds : (plan.run.play {} replies).result with
  | error failure =>
      rw [succeeds] at finished
      cases finished
  | ok records =>
      obtain ⟨rows, answers, _, _, same, _⟩ := run_joined accepted succeeds
      exact ⟨plan, records, rows, answers, accepted, succeeds, same⟩

end RequestQuery.Plan
