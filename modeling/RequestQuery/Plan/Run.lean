/-
# Running a plan

The root statement is sent first.  Then, load by load, the keys of the parents are collected, each
once, and their related records are fetched in batches; the joins nested in a load are run over all
its records before these are handed to their parents.  Parents without a usable key, and all
parents of a load that is known to be empty, get nothing, and nothing is sent for them.

A failure of the root statement is told which entity it is about; every other failure stays as it
is, and each ends the run.
-/
import RequestQuery.Plan.MatchKey
import RequestQuery.Plan.Statement
import RequestQuery.Session

namespace RequestQuery.Plan

set_option autoImplicit false

/-! ## Keys -/

/-- How many keys one statement is given. -/
def batchSize : Nat := 500

/-- The match key of a column of a record. -/
def keyOf (column : String) (record : Record) : Option String :=
  (record.get? column).bind matchKey?

/-- The key of a record as it is matched and as it is sent. -/
def keyPair? (column : String) (record : Record) : Option (String × Parameter) := do
  let value ← record.get? column
  let key ← matchKey? value
  pure (key, Parameter.ofJson value)

/-- The first entry of each key. -/
def firstEntries (entries : List (String × Parameter)) : Ordered Parameter :=
  entries.foldl
    (fun seen entry => if (seen.get? entry.1).isSome then seen else seen ++ [entry]) []

/-- The keys of the parents, without repetitions, in the order in which they first occur. -/
def parentKeys (column : String) (parents : List Record) : List Parameter :=
  (firstEntries (parents.filterMap (keyPair? column))).map (·.2)

/-- Keys in batches; only the last one may be short. -/
def batches (keys : List Parameter) : List (List Parameter) :=
  match keys with
  | [] => []
  | key :: rest =>
      (key :: rest.take (batchSize - 1)) :: batches (rest.drop (batchSize - 1))
termination_by keys.length
decreasing_by simp only [List.length_drop, List.length_cons]; omega

theorem flatten_batches (keys : List Parameter) : (batches keys).flatten = keys := by
  fun_induction batches keys with
  | case1 => rfl
  | case2 key rest ih => rw [List.flatten_cons, ih, List.cons_append, List.take_append_drop]

theorem length_le_of_mem_batches {keys batch : List Parameter} (h : batch ∈ batches keys) :
    batch.length ≤ batchSize := by
  fun_induction batches keys with
  | case1 => exact absurd h List.not_mem_nil
  | case2 key rest ih =>
      rcases List.mem_cons.1 h with rfl | h
      · simp only [List.length_cons, List.length_take, batchSize]
        omega
      · exact ih h

/-! ## Related records -/

/-- A row that a join has fetched, without its rank. -/
def fetchedRecord (row : Row) : Record :=
  Record.ofRow (Ordered.remove row Sql.rankColumn)

def fetchBatches (join : Join) : List (List Parameter) → Session (List Record)
  | [] => pure []
  | batch :: rest => do
      let rows ← Session.rows (join.statement batch)
      let others ← fetchBatches join rest
      pure (rows.map fetchedRecord ++ others)

/-- Records by the match key of a column, each group in the order of the records. -/
def groupRecords (column : String) (records : List Record) : Ordered (List Record) :=
  records.foldl
    (fun groups record =>
      match keyOf column record with
      | some key => groups.put key ((groups.get? key).getD [] ++ [record])
      | none => groups)
    []

/-- What the records that match one parent are to that parent. -/
def relate (cardinality : Cardinality) (matched : List Record) : Related :=
  match cardinality with
  | .many => .many matched
  | .one => .one matched.head?

/-- Give a parent its related records. -/
def attachGroup (join : Join) (groups : Ordered (List Record)) (parent : Record) : Record :=
  let matched := ((keyOf join.localKey parent).bind groups.get?).getD []
  parent.withRelation join.name (relate join.cardinality matched)

/-- Fetch the related records for these keys, complete them with `nested`, and hand them out. -/
def runJoin (join : Join) (nested : List Record → Session (List Record))
    (keys : List Parameter) (parents : List Record) : Session (List Record) := do
  let fetched ← fetchBatches join (batches keys)
  let children ← nested fetched
  pure (parents.map (attachGroup join (groupRecords join.foreignKey children)))

def runNested (joins : List Join) (parents : List Record) : Session (List Record) :=
  joins.foldlM (fun parents join => runJoin join pure (parentKeys join.localKey parents) parents)
    parents

def runLoad (parents : List Record) (load : EagerLoad) : Session (List Record) :=
  let keys := if load.isEmpty then [] else parentKeys load.join.localKey parents
  runJoin load.join (runNested load.nested) keys parents

/-! ## The plan -/

def run (plan : Plan) : Session (List Record) :=
  .query plan.statement fun
    | .error failure => .done (.error (failure.withEntity plan.entity))
    | .ok rows => do
        let records ← plan.loads.foldlM runLoad (rows.map Record.ofRow)
        pure (records.map (·.without plan.hidden))

end RequestQuery.Plan
