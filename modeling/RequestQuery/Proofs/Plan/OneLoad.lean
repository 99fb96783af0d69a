/-
# Plans with one load

What is said and what comes out when a plan has one load, with nothing nested in it, and the store
answers each batch in turn.
-/
import RequestQuery.Proofs.Plan.NestedLoop

namespace RequestQuery.Plan

set_option autoImplicit false

/-! ## Batches -/

/-- A store that answers with these rows, one list after the other. -/
def repliesOf (answers : List (List Row)) : List Reply :=
  answers.map fun rows => { rows }

theorem fetchBatches_cons {α : Type} (join : Join) (part : List Parameter)
    (parts : List (List Parameter)) (next : List Record → Session α) :
    (fetchBatches join (part :: parts) >>= next) =
      (Session.rows (join.statement part) >>= fun rows =>
        fetchBatches join parts >>= fun others => next (rows.map fetchedRecord ++ others)) := by
  change Session.bind (Session.bind _ fun rows => Session.bind _ _) next = _
  rw [Session.bind_bind]
  refine congrArg (Session.bind _) (funext fun rows => ?_)
  rw [Session.bind_bind]
  rfl

theorem exchanges_fetchBatches {α : Type} (join : Join) (silence : Reply)
    {parts : List (List Parameter)} {answers : List (List Row)}
    (lengths : parts.length = answers.length) (next : List Record → Session α) :
    (fetchBatches join parts >>= next).exchanges silence (repliesOf answers) =
      ((parts.zip answers).map fun item => .query (join.statement item.1) (.ok item.2)) ++
        (next (answers.flatten.map fetchedRecord)).exchanges silence [] := by
  induction parts generalizing answers next with
  | nil =>
      cases answers with
      | nil => rfl
      | cons => cases lengths
  | cons part parts ih =>
      cases answers with
      | nil => cases lengths
      | cons rows answers =>
          rw [fetchBatches_cons]
          change _ :: (fetchBatches join parts >>= _).exchanges silence (repliesOf answers) = _
          rw [ih (Nat.succ.inj lengths), List.flatten_cons, List.map_append]
          rfl

theorem result_fetchBatches {α : Type} (join : Join) (silence : Reply)
    {parts : List (List Parameter)} {answers : List (List Row)}
    (lengths : parts.length = answers.length) (next : List Record → Session α) :
    ((fetchBatches join parts >>= next).play silence (repliesOf answers)).result =
      ((next (answers.flatten.map fetchedRecord)).play silence []).result := by
  induction parts generalizing answers next with
  | nil =>
      cases answers with
      | nil => rfl
      | cons => cases lengths
  | cons part parts ih =>
      cases answers with
      | nil => cases lengths
      | cons rows answers =>
          rw [fetchBatches_cons]
          change ((fetchBatches join parts >>= _).play silence (repliesOf answers)).result = _
          rw [ih (Nat.succ.inj lengths), List.flatten_cons, List.map_append]

/-! ## The one load -/

section OneLoad

variable {plan : Plan} {load : EagerLoad} (loads : plan.loads = [load])
  (executed : load.isEmpty = false) (flat : load.nested = []) {rows : List Row}
  {parts : List (List Parameter)}
  (cut : batches (parentKeys load.join.localKey (rows.map Record.ofRow)) = parts)
  {answers : List (List Row)} (lengths : parts.length = answers.length) (silence : Reply)

include loads executed flat cut

theorem run_single :
    (do let records ← plan.loads.foldlM runLoad (rows.map Record.ofRow)
        pure (records.map (·.without plan.hidden)) : Session (List Record)) =
      fetchBatches load.join parts >>= fun fetched =>
        pure (((rows.map Record.ofRow).map
          (attachGroup load.join (groupRecords load.join.foreignKey fetched))).map
            (·.without plan.hidden)) := by
  rw [loads, List.foldlM_cons, runLoad, executed, if_neg Bool.false_ne_true, runJoin, cut, flat]
  change Session.bind (Session.bind (Session.bind _ _) _) _ = Session.bind _ _
  rw [Session.bind_bind, Session.bind_bind]
  rfl

include lengths

theorem exchanges_single :
    plan.run.exchanges silence ({ rows } :: repliesOf answers) =
      .query plan.statement (.ok rows) ::
        (parts.zip answers).map fun item =>
          .query (load.join.statement item.1) (.ok item.2) := by
  have rest := exchanges_fetchBatches load.join silence lengths fun fetched =>
    (pure (((rows.map Record.ofRow).map
      (attachGroup load.join (groupRecords load.join.foreignKey fetched))).map
        (·.without plan.hidden)) : Session (List Record))
  rw [← run_single loads executed flat cut] at rest
  exact congrArg _ (rest.trans (List.append_nil _))

theorem result_single :
    (plan.run.play silence ({ rows } :: repliesOf answers)).result =
      .ok (rows.map fun row =>
        .of (row.filter fun column => column.1 ∉ plan.hidden)
          [(load.join.name, load.join.relatedTo (answers.flatten.map fetchedRecord) row)]) := by
  have rest := result_fetchBatches load.join silence lengths fun fetched =>
    (pure (((rows.map Record.ofRow).map
      (attachGroup load.join (groupRecords load.join.foreignKey fetched))).map
        (·.without plan.hidden)) : Session (List Record))
  rw [← run_single loads executed flat cut] at rest
  refine Eq.trans rest (congrArg Except.ok ?_)
  rw [List.map_map, List.map_map]
  refine List.map_congr_left fun row _ => ?_
  rw [Function.comp_apply, Function.comp_apply, attachGroup_eq, without_eq]
  rfl

end OneLoad

/-! ## What a parent is handed -/

theorem rowKey_singleton (column : String) (value : Json.Value) :
    rowKey column [(column, value)] = matchKey? value := by
  rw [rowKey, Ordered.get?, if_pos rfl, Option.bind_some]

/-- All records of a relation are handed to a parent with the key of all of them. -/
theorem relatedTo_of_matching {join : Join} (many : join.cardinality = .many) {key : String}
    {rows : List Row}
    (matched : ∀ row ∈ rows, rowKey join.foreignKey (unranked row) = some key) {parent : Row}
    (keyed : rowKey join.localKey parent = some key) :
    join.relatedTo (rows.map fetchedRecord) parent = .many (rows.map fetchedRecord) := by
  have all : ((rows.map fetchedRecord).filter fun child =>
      rowKey join.foreignKey child.fields = some key) = rows.map fetchedRecord := by
    refine List.filter_eq_self.2 fun child member => ?_
    obtain ⟨row, present, rfl⟩ := List.mem_map.1 member
    exact decide_eq_true (matched row present)
  rw [Join.relatedTo_eq_relate, many, relate, Join.matching, keyed]
  exact congrArg Related.many all

end RequestQuery.Plan
