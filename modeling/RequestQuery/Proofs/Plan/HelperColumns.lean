/-
# Helper columns

Related records are matched by the local keys of the loads.  Where a query selects its columns, a
key that is needed and not selected is fetched after them, and it is taken out of the records at the
very end, when everything is matched.

`HelperColumns` says which columns these are: all that are needed, no others, each once.  A record
that is handed out shows none of them, and yet it is related by all columns of its row
(`HandedOut`).
-/
import RequestQuery.Proofs.Ordered
import RequestQuery.Proofs.Plan.Conversation

namespace RequestQuery.Plan

set_option autoImplicit false

/-! ## Which columns are hidden -/

/-- What the hidden columns are, besides the selected ones, for these loads. -/
structure HelperColumns (selected : List String) (loads : List EagerLoad)
    (hidden : List String) : Prop where
  /-- The keys of all loads that are asked for are fetched. -/
  complete : ∀ load ∈ loads, load.isEmpty = false → load.join.localKey ∈ selected ++ hidden
  needed : ∀ column ∈ hidden, ∃ load ∈ loads, load.isEmpty = false ∧ load.join.localKey = column
  unselected : ∀ column ∈ hidden, column ∉ selected
  distinct : hidden.Nodup
  /-- They stand in the order of the first loads that need them. -/
  ordered : hidden =
    (((loads.filter (!·.isEmpty)).map (·.join.localKey)).filter (· ∉ selected)).eraseDups

/-- A key is hidden where it occurs first, unless it is selected. -/
theorem hiddenKeys_eq (selected keys : List String) :
    hiddenKeys selected keys = (keys.filter (· ∉ selected)).eraseDups := by
  -- What is selected is passed over, so only the hidden keys themselves are looked through.
  have step : ∀ (hidden : List String) (key : String),
      (if key ∈ selected ++ hidden then hidden else hidden ++ [key]) =
        if decide (key ∉ selected) = true then
          (if key ∈ hidden then hidden else hidden ++ [key])
        else hidden := by
    intro hidden key
    by_cases chosen : key ∈ selected <;> simp [chosen]
  have added : ∀ (hidden : List String) (key : String),
      id (if key ∈ hidden then hidden else hidden ++ [key]) =
        if id key ∈ id hidden then id hidden else id hidden ++ [id key] := by
    intro hidden key
    rfl
  unfold hiddenKeys
  simp only [step]
  rw [← List.foldl_filter]
  have none : (id ([] : List String)).Nodup := List.nodup_nil
  have names := names_foldl id added none (keys.filter (· ∉ selected))
  rw [List.map_id] at names
  exact names

theorem mem_neededKeys {loads : List EagerLoad} {key : String} :
    key ∈ neededKeys loads ↔ ∃ load ∈ loads, load.isEmpty = false ∧ load.join.localKey = key := by
  simp only [neededKeys, List.mem_map, List.mem_filter, Bool.not_eq_true', and_assoc]

theorem helperColumns_hiddenKeys (selected : List String) (loads : List EagerLoad) :
    HelperColumns selected loads (hiddenKeys selected (neededKeys loads)) := by
  have hidden : ∀ column, column ∈ hiddenKeys selected (neededKeys loads) ↔
      column ∈ neededKeys loads ∧ column ∉ selected := by
    intro column
    rw [hiddenKeys_eq, List.mem_eraseDups, List.mem_filter, decide_eq_true_iff]
  constructor
  case complete =>
    intro load member asked
    rw [List.mem_append, hidden]
    by_cases chosen : load.join.localKey ∈ selected
    · exact .inl chosen
    · exact .inr ⟨mem_neededKeys.2 ⟨load, member, asked, rfl⟩, chosen⟩
  case needed =>
    intro column member
    exact mem_neededKeys.1 ((hidden column).1 member).1
  case unselected =>
    intro column member
    exact ((hidden column).1 member).2
  case distinct =>
    rw [hiddenKeys_eq]
    exact nodup_eraseDups _
  case ordered => exact hiddenKeys_eq selected (neededKeys loads)

section Accepted

variable {catalog : Catalog} {entity : String} {limits : Limits} {query : Request.Query}
  {plan : Plan} (accepted : compile catalog entity limits query = .ok plan)

include accepted

/-- The selection goes into the plan as it is, with the helper columns behind it. -/
theorem projection_of_selected {selected : List String} (select : query.select = some selected) :
    plan.projection = some (selected ++ plan.hidden) ∧
      HelperColumns selected plan.loads plan.hidden := by
  obtain ⟨root, explicit, resolved, _, _, _, _, _, rfl⟩ := compile_eq_ok_iff.1 accepted
  simp only [assembled, select]
  exact ⟨rfl, helperColumns_hiddenKeys selected _⟩

/-- All columns are fetched where none are selected, so there is nothing to help with. -/
theorem projection_of_unselected (select : query.select = none) :
    plan.projection = none ∧ plan.hidden = [] := by
  obtain ⟨root, explicit, resolved, _, _, _, _, _, rfl⟩ := compile_eq_ok_iff.1 accepted
  simp only [assembled, select, Option.map_none, and_self]

theorem not_mem_hidden {column : String} (chosen : column ∈ query.select.getD []) :
    column ∉ plan.hidden := by
  intro hidden
  cases select : query.select with
  | none =>
      rw [select] at chosen
      exact List.not_mem_nil chosen
  | some selected =>
      rw [select] at chosen
      exact (projection_of_selected accepted select).2.unselected column hidden chosen

end Accepted

/-! ## What is handed out -/

/-- The record for a row of the root: what it shows of the columns, and what it is related to. -/
structure HandedOut (plan : Plan) (selected : List String) (answers : List LoadAnswers)
    (row : Row) (record : Record) : Prop where
  columns : record.fields = row.filter fun column => column.1 ∉ plan.hidden
  selected : ∀ column ∈ selected, record.get? column = Ordered.get? row column
  hidden : ∀ column ∈ plan.hidden, record.get? column = none
  /-- Each load is matched with the whole row. -/
  related : record.relations = (plan.loads.zip answers).map fun item =>
    (item.1.join.name, item.1.join.relatedTo (item.1.children item.2) row)

theorem handedOut_joined {plan : Plan} {selected : List String}
    (apart : ∀ column ∈ selected, column ∉ plan.hidden) (rows : List Row)
    (answers : List LoadAnswers) :
    List.Forall₂ (HandedOut plan selected answers) rows (joined plan rows answers) := by
  unfold joined
  rw [List.forall₂_map_right_iff, List.forall₂_same]
  intro row _
  constructor
  case columns => rfl
  case selected =>
    intro column chosen
    have kept : decide (column ∉ plan.hidden) = true := decide_eq_true (apart column chosen)
    exact Ordered.get?_filter (fun name => decide (name ∉ plan.hidden)) row kept
  case hidden =>
    intro column taken
    refine Ordered.get?_eq_none_iff.2 fun shown => ?_
    obtain ⟨entry, member, rfl⟩ := List.mem_map.1 shown
    have kept := (List.mem_filter.1 member).2
    exact of_decide_eq_true kept taken
  case related => rfl

/-- **Helper columns are complete, minimal and invisible.**  The columns that are fetched are the
selected ones and then the helper columns; all columns are fetched and none is hidden where nothing
is selected.  Every run that succeeds hands out one record for each row of the root, which lacks the
hidden columns and nothing else; the keys that are asked for, and what each record is related to, are
those of the rows with all their columns. -/
theorem hidden_of_accepted {catalog : Catalog} {entity : String} {limits : Limits}
    {query : Request.Query} {plan : Plan}
    (accepted : compile catalog entity limits query = .ok plan) :
    (∀ selected, query.select = some selected →
      plan.projection = some (selected ++ plan.hidden) ∧
        HelperColumns selected plan.loads plan.hidden) ∧
    (query.select = none → plan.projection = none ∧ plan.hidden = []) ∧
    ∀ (silence : Reply) (replies : List Reply) (records : List Record),
      (plan.run.play silence replies).result = .ok records →
        ∃ (rows : List Row) (answers : List LoadAnswers),
          plan.run.exchanges silence replies = plan.conversation rows answers ∧
          List.Forall₂ (fun load part => load.Asks rows part) plan.loads answers ∧
          List.Forall₂ (HandedOut plan (query.select.getD []) answers) rows records := by
  refine ⟨fun selected => projection_of_selected accepted, projection_of_unselected accepted, ?_⟩
  intro silence replies records succeeds
  have run := plan.run.runs_exchanges silence replies
  rw [succeeds] at run
  obtain ⟨rows, answers, asks, said, rfl⟩ := joined_of_runs accepted run
  have apart : ∀ column ∈ query.select.getD [], column ∉ plan.hidden :=
    fun column => not_mem_hidden accepted
  exact ⟨rows, answers, said, asks, handedOut_joined apart rows answers⟩

/-- Only the titles of posts are selected; the comments are matched by the identifiers of the
posts. -/
theorem hidden_of_accepted_titles :
    let catalog := Catalog.ofList
      [{ name := "Post", table := "posts",
         relations := [.oneToMany "comments" "Comment" "post_id"] },
       { name := "Comment", table := "comments" }]
    let query : Request.Query := { select := some ["title"], loads := [{ relation := "comments" }] }
    let row : Row := [("title", .string "t"), ("id", .string "a")]
    let replies : List Reply := [{ rows := [row] }, { rows := [[("post_id", .string "a")]] }]
    ∃ plan record answers, compile catalog "Post" {} query = .ok plan ∧
      plan.projection = some ["title", "id"] ∧ plan.hidden = ["id"] ∧
      (plan.run.play {} replies).result = .ok [record] ∧
      HandedOut plan ["title"] answers row record := by
  intro catalog query row replies
  obtain ⟨plan, accepted, columns, finished⟩ : ∃ plan, compile catalog "Post" {} query = .ok plan ∧
      plan.projection = some ["title", "id"] ∧
        (plan.run.play {} replies).result.toBool = true := ⟨_, rfl, rfl, by decide +kernel⟩
  obtain ⟨selects, _, runs⟩ := hidden_of_accepted accepted
  have hidden : plan.hidden = ["id"] := by
    have fetched := (selects ["title"] rfl).1
    rw [columns] at fetched
    exact (List.cons.inj (Option.some.inj fetched)).2.symm
  cases succeeds : (plan.run.play {} replies).result with
  | error failure =>
      rw [succeeds] at finished
      cases finished
  | ok records =>
      obtain ⟨rows, answers, said, _, each⟩ := runs {} replies records succeeds
      have first : (plan.run.exchanges {} replies).head? =
          some (.query plan.statement (.ok [row])) := rfl
      rw [said] at first
      cases first
      cases each with
      | cons handedOut rest =>
          cases rest
          exact ⟨plan, _, answers, accepted, columns, hidden, succeeds, handedOut⟩

end RequestQuery.Plan
