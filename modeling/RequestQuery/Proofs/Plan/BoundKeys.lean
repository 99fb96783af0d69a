/-
# Keys as they are bound

The keys of the parents are told apart by their match keys, the first value of each is bound, and
what is bound is cut into batches.  A key that is bound has the match key of the value it comes from
(`boundKeys_parentKeys`), unless that is an integer beyond the signed words, which is rounded when it
is bound.
-/
import Mathlib.Data.List.Nodup
import RequestQuery.Plan.Run
import RequestQuery.Proofs.Parameter

namespace RequestQuery.Plan

set_option autoImplicit false

/-! ## The first entry of each key -/

/-- The entries with one more, unless its name is there. -/
def addFirst (seen : Ordered Parameter) (entry : String × Parameter) : Ordered Parameter :=
  if (seen.get? entry.1).isSome then seen else seen ++ [entry]

theorem addFirst_eq (seen : Ordered Parameter) (entry : String × Parameter) :
    addFirst seen entry = if entry.1 ∈ seen.names then seen else seen.put entry.1 entry.2 := by
  rw [addFirst]
  by_cases known : entry.1 ∈ seen.names
  · have found : (seen.get? entry.1).isSome = true := by
      rw [Option.isSome_iff_ne_none, Ne, Ordered.get?_eq_none_iff, not_not]
      exact known
    rw [if_pos known, if_pos found]
  · rw [if_neg known, Ordered.get?_eq_none_iff.2 known, Ordered.put_of_not_mem _ known,
      if_neg (by simp)]

theorem mem_names_addFirst {seen : Ordered Parameter} {entry : String × Parameter}
    {name : String} :
    name ∈ (addFirst seen entry).names ↔ name ∈ seen.names ∨ name = entry.1 := by
  rw [addFirst_eq]
  split
  next known => exact ⟨.inl, fun either => either.elim id fun same => same ▸ known⟩
  next => exact Ordered.mem_names_put

theorem distinct_addFirst {seen : Ordered Parameter} (distinct : seen.Distinct)
    (entry : String × Parameter) : (addFirst seen entry).Distinct := by
  rw [addFirst_eq]
  split
  next => exact distinct
  next => exact distinct.put _ _

theorem mem_addFirst {seen : Ordered Parameter} {entry other : String × Parameter}
    (member : other ∈ addFirst seen entry) : other ∈ seen ∨ other = entry := by
  rw [addFirst_eq] at member
  split at member
  next => exact .inl member
  next => exact (Ordered.mem_put member).symm

theorem firstEntries_eq (entries : List (String × Parameter)) :
    firstEntries entries = entries.foldl addFirst [] := rfl

/-- No name occurs twice. -/
theorem distinct_firstEntries (entries : List (String × Parameter)) :
    (firstEntries entries).Distinct := by
  rw [firstEntries_eq]
  exact List.foldlRecOn entries addFirst List.nodup_nil fun _ distinct entry _ =>
    distinct_addFirst distinct entry

theorem mem_of_mem_firstEntries {entries : List (String × Parameter)} :
    ∀ entry ∈ firstEntries entries, entry ∈ entries := by
  rw [firstEntries_eq]
  refine List.foldlRecOn entries addFirst (motive := fun seen => ∀ entry ∈ seen, entry ∈ entries)
    nofun fun seen known entry given other member => ?_
  rcases mem_addFirst member with earlier | rfl
  · exact known other earlier
  · exact given

theorem mem_names_firstEntries {entries : List (String × Parameter)} {name : String} :
    name ∈ (firstEntries entries).names ↔ name ∈ Ordered.names entries := by
  suffices ∀ seen : Ordered Parameter,
      name ∈ (entries.foldl addFirst seen).names ↔ name ∈ seen.names ∨ name ∈ Ordered.names entries
    from (this []).trans (or_iff_right List.not_mem_nil)
  induction entries with
  | nil => simp [Ordered.names]
  | cons entry entries ih =>
      intro seen
      rw [List.foldl_cons, ih, mem_names_addFirst, or_assoc]
      simp [Ordered.names]

theorem firstEntries_of_distinct {entries : List (String × Parameter)}
    (distinct : Ordered.Distinct entries) : firstEntries entries = entries := by
  rw [firstEntries_eq]
  suffices ∀ seen : Ordered Parameter, Ordered.Distinct (seen ++ entries) →
      entries.foldl addFirst seen = seen ++ entries from this [] distinct
  clear distinct
  induction entries with
  | nil => exact fun seen _ => (List.append_nil seen).symm
  | cons entry rest ih =>
      intro seen apart
      have fresh : entry.1 ∉ seen.names := by
        rw [Ordered.Distinct, Ordered.names, List.map_append, List.nodup_append] at apart
        exact fun taken => apart.2.2 _ taken _ List.mem_cons_self rfl
      have added : addFirst seen entry = seen ++ [entry] := by
        rw [addFirst_eq, if_neg fresh, Ordered.put_of_not_mem _ fresh]
      rw [List.foldl_cons, added, ih _ (by rwa [List.append_assoc]), List.append_assoc]
      rfl

/-! ## Keys of parents -/

/-- The match keys of keys as they are bound. -/
def boundKeys (keys : List Parameter) : List String :=
  keys.filterMap fun key => matchKey? key.toJson

theorem boundKeys_append (keys others : List Parameter) :
    boundKeys (keys ++ others) = boundKeys keys ++ boundKeys others :=
  List.filterMap_append

theorem exists_of_mem_keyPairs {column : String} {parents : List Record}
    {entry : String × Parameter} (member : entry ∈ parents.filterMap (keyPair? column)) :
    ∃ parent ∈ parents, ∃ value ∈ parent.get? column,
      matchKey? value = some entry.1 ∧ entry.2 = Parameter.ofJson value := by
  obtain ⟨parent, present, paired⟩ := List.mem_filterMap.1 member
  obtain ⟨value, found, keyed⟩ := Option.bind_eq_some_iff.1 paired
  obtain ⟨key, matched, same⟩ := Option.bind_eq_some_iff.1 keyed
  cases same
  exact ⟨parent, present, value, found, matched, rfl⟩

section Bound

variable {column : String} {parents : List Record}
  (signed : ∀ parent ∈ parents, ∀ value ∈ parent.get? column, value.FitsSigned)

include signed

/-- What is bound has the match keys of the parents. -/
theorem boundKeys_parentKeys :
    boundKeys (parentKeys column parents) =
      (firstEntries (parents.filterMap (keyPair? column))).names := by
  rw [boundKeys, parentKeys, List.filterMap_map, Ordered.names, ← List.filterMap_eq_map]
  refine List.filterMap_congr fun entry member => ?_
  obtain ⟨parent, present, value, found, matched, bound⟩ :=
    exists_of_mem_keyPairs (mem_of_mem_firstEntries entry member)
  rw [Function.comp_apply, bound, Parameter.toJson_ofJson (signed parent present value found),
    matched]
  rfl

theorem nodup_boundKeys : (boundKeys (parentKeys column parents)).Nodup := by
  rw [boundKeys_parentKeys signed]
  exact distinct_firstEntries _

theorem mem_boundKeys {parent : Record} (present : parent ∈ parents) {key : String}
    (keyed : keyOf column parent = some key) : key ∈ boundKeys (parentKeys column parents) := by
  rw [boundKeys_parentKeys signed, mem_names_firstEntries]
  obtain ⟨value, found, matched⟩ := Option.bind_eq_some_iff.1 keyed
  have paired : keyPair? column parent = some (key, Parameter.ofJson value) :=
    Option.bind_eq_some_iff.2 ⟨value, found, Option.bind_eq_some_iff.2 ⟨key, matched, rfl⟩⟩
  exact List.mem_map_of_mem (List.mem_filterMap.2 ⟨parent, present, paired⟩)

end Bound

/-- Values with match keys of their own are all bound. -/
theorem parentKeys_of_nodup {column : String} {values : List Json.Value} {keys : List String}
    (matched : values.map matchKey? = keys.map some) (distinct : keys.Nodup) :
    parentKeys column ((values.map fun value => [(column, value)]).map Record.ofRow) =
      values.map Parameter.ofJson := by
  have pairs : ((values.map fun value => [(column, value)]).map Record.ofRow).filterMap
      (keyPair? column) = keys.zip (values.map Parameter.ofJson) := by
    clear distinct
    induction values generalizing keys with
    | nil =>
        rw [List.map_nil, eq_comm, List.map_eq_nil_iff] at matched
        rw [matched]
        rfl
    | cons value values ih =>
        cases keys with
        | nil => cases matched
        | cons key keys =>
            obtain ⟨first, others⟩ := List.cons.inj matched
            have pair : keyPair? column (Record.ofRow [(column, value)]) =
                some (key, Parameter.ofJson value) :=
              Option.bind_eq_some_iff.2 ⟨value, if_pos rfl,
                Option.bind_eq_some_iff.2 ⟨key, first, rfl⟩⟩
            rw [List.map_cons, List.map_cons, List.filterMap_cons, pair, ih others]
            rfl
  have lengths : (values.map Parameter.ofJson).length = keys.length := by
    have same := congrArg List.length matched
    simpa using same
  have names : Ordered.names (keys.zip (values.map Parameter.ofJson)) = keys :=
    List.map_fst_zip (Nat.le_of_eq lengths.symm)
  rw [parentKeys, pairs, firstEntries_of_distinct (by rwa [Ordered.Distinct, names])]
  exact List.map_snd_zip (Nat.le_of_eq lengths)

/-! ## Batches -/

theorem batches_append {front : List Parameter} (full : front.length = batchSize)
    (back : List Parameter) : batches (front ++ back) = front :: batches back := by
  cases front with
  | nil => cases full
  | cons key rest =>
      have short : rest.length = batchSize - 1 := by
        rw [List.length_cons] at full
        omega
      rw [List.cons_append, batches, List.take_left' short, List.drop_left' short]

theorem batches_of_le {keys : List Parameter} (someKey : keys ≠ [])
    (few : keys.length ≤ batchSize) : batches keys = [keys] := by
  cases keys with
  | nil => exact absurd rfl someKey
  | cons key rest =>
      rw [List.length_cons] at few
      rw [batches, List.take_of_length_le (by omega), List.drop_eq_nil_of_le (by omega), batches]

end RequestQuery.Plan
