/-
# Entries that are put one after the other

Of entries that are put one after the other under their names, a name keeps the place where it first
occurs (`names_ofList`) and has the value with which it occurs last (`get?_ofList`).  The same holds
of names wherever a name that is there already adds nothing and any other name goes to the end
(`names_foldl`).
-/
import Mathlib.Data.List.Nodup
import RequestQuery.Ordered

namespace RequestQuery

set_option autoImplicit false

/-! ## Names in the order in which they first occur -/

section Names

variable {names others : List String}

theorem nodup_eraseDups (names : List String) : names.eraseDups.Nodup := by
  cases names with
  | nil => exact List.nodup_nil
  | cons name rest =>
      rw [List.eraseDups_cons, List.nodup_cons]
      refine ⟨fun repeated => ?_, nodup_eraseDups (rest.filter fun other => !other == name)⟩
      have kept := List.mem_eraseDups.1 repeated
      simp at kept
termination_by names.length
decreasing_by
  have shorter := List.length_filter_le (fun other => !other == name) rest
  simp only [List.length_cons]
  omega

theorem eraseDups_of_nodup (distinct : names.Nodup) : names.eraseDups = names := by
  induction names with
  | nil => rfl
  | cons name rest ih =>
      obtain ⟨fresh, others⟩ := List.nodup_cons.1 distinct
      have kept : rest.filter (fun other => !other == name) = rest := by
        refine List.filter_eq_self.2 fun other member => ?_
        have apart : other ≠ name := fun same => fresh (same ▸ member)
        simp [apart]
      rw [List.eraseDups_cons, kept, ih others]

theorem removeAll_eraseDups (names others : List String) :
    names.removeAll others.eraseDups = names.removeAll others := by
  unfold List.removeAll
  refine List.filter_congr fun name _ => ?_
  by_cases taken : name ∈ others <;> simp [taken, List.mem_eraseDups]

/-- Names after names that are told apart already. -/
theorem eraseDups_append_of_nodup (distinct : names.Nodup) (others : List String) :
    (names ++ others).eraseDups = names ++ (others.removeAll names).eraseDups := by
  rw [List.eraseDups_append, eraseDups_of_nodup distinct]

theorem eraseDups_eraseDups_append (names others : List String) :
    (names.eraseDups ++ others).eraseDups = (names ++ others).eraseDups := by
  rw [eraseDups_append_of_nodup (nodup_eraseDups names), removeAll_eraseDups,
    List.eraseDups_append]

/-- A step that leaves the names alone where its own name is among them, and puts it at the end
otherwise, leaves the names in the order in which they first occur. -/
theorem names_foldl {α β : Type} {name : β → String} {step : α → β → α} (namesOf : α → List String)
    (each : ∀ a b, namesOf (step a b) =
      if name b ∈ namesOf a then namesOf a else namesOf a ++ [name b])
    {start : α} (distinct : (namesOf start).Nodup) (items : List β) :
    namesOf (items.foldl step start) = (namesOf start ++ items.map name).eraseDups := by
  induction items generalizing start with
  | nil => rw [List.foldl_nil, List.map_nil, List.append_nil, eraseDups_of_nodup distinct]
  | cons item items ih =>
      have first := each start item
      by_cases taken : name item ∈ namesOf start
      · rw [if_pos taken] at first
        have dropped : (name item :: items.map name).removeAll (namesOf start) =
            (items.map name).removeAll (namesOf start) := by
          simp [List.removeAll, taken]
        rw [List.foldl_cons, ih (first ▸ distinct), first, List.map_cons,
          eraseDups_append_of_nodup distinct, eraseDups_append_of_nodup distinct, dropped]
      · rw [if_neg taken] at first
        have apart : (namesOf start ++ [name item]).Nodup :=
          List.nodup_append.2 ⟨distinct, List.nodup_singleton _, by
            rintro here member there single rfl
            exact taken (List.mem_singleton.1 single ▸ member)⟩
        rw [List.foldl_cons, ih (first ▸ apart), first, List.map_cons, List.append_assoc,
          List.singleton_append]

end Names

/-! ## Entries -/

namespace Ordered

variable {α : Type}

theorem names_put (entries : Ordered α) (name : String) (value : α) :
    (entries.put name value).names =
      if name ∈ entries.names then entries.names else entries.names ++ [name] := by
  split
  next taken => exact names_put_of_mem value taken
  next fresh => exact names_put_of_not_mem value fresh

/-- A name that is there gets the new value in its place. -/
theorem put_of_mem {entries : Ordered α} (distinct : entries.Distinct) {name : String} (value : α)
    (known : name ∈ entries.names) : entries.put name value =
      entries.map fun entry => if entry.1 = name then (name, value) else entry := by
  induction entries with
  | nil => cases known
  | cons entry rest ih =>
      obtain ⟨fresh, others⟩ := List.nodup_cons.1 distinct
      by_cases same : entry.1 = name
      · subst same
        have untouched : ∀ other ∈ rest,
            (if other.1 = entry.1 then (entry.1, value) else other) = other :=
          fun other member => if_neg fun same => fresh (List.mem_map.2 ⟨other, member, same⟩)
        rw [put, if_pos rfl, List.map_cons, if_pos rfl, List.map_congr_left untouched, List.map_id']
      · have later : name ∈ names rest := (List.mem_cons.1 known).resolve_left (Ne.symm same)
        rw [put, if_neg same, List.map_cons, if_neg same, ih others later]

/-- **A name keeps its first place.** -/
theorem names_ofList (entries : List (String × α)) :
    (ofList entries).names = (names entries).eraseDups := by
  have each : ∀ (acc : Ordered α) (entry : String × α), (acc.put entry.1 entry.2).names =
      if entry.1 ∈ acc.names then acc.names else acc.names ++ [entry.1] :=
    fun acc entry => names_put acc entry.1 entry.2
  have none : (names ([] : Ordered α)).Nodup := List.nodup_nil
  exact names_foldl names each none entries

/-- **A name has its last value.** -/
theorem get?_ofList (entries : List (String × α)) (name : String) :
    (ofList entries).get? name = ((entries.filter (·.1 = name)).getLast?).map (·.2) := by
  suffices ∀ start : Ordered α,
      get? (entries.foldl (fun acc entry => Ordered.put acc entry.1 entry.2) start) name =
        (((entries.filter (·.1 = name)).getLast?).map (·.2)).or (start.get? name) from
    (this []).trans (Option.or_none)
  induction entries with
  | nil => exact fun start => rfl
  | cons entry rest ih =>
      intro start
      rw [List.foldl_cons, ih, get?_put]
      by_cases same : entry.1 = name
      · rw [if_pos same, List.filter_cons_of_pos (by simpa using same), List.getLast?_cons]
        cases (rest.filter (·.1 = name)).getLast? <;> rfl
      · rw [if_neg same, List.filter_cons_of_neg (by simpa using same)]

/-! ## Looking up in entries that were put together -/

theorem get?_append (entries others : Ordered α) (name : String) :
    get? (entries ++ others) name = (entries.get? name).or (others.get? name) := by
  induction entries with
  | nil => rfl
  | cons entry rest ih =>
      by_cases same : entry.1 = name
      · simp [get?, same]
      · simpa [get?, same] using ih

theorem get?_mapNamed {β : Type} (f : String → α → β) (entries : Ordered α) (name : String) :
    get? (entries.map fun entry => (entry.1, f entry.1 entry.2)) name =
      (entries.get? name).map (f name) := by
  induction entries with
  | nil => rfl
  | cons entry rest ih =>
      by_cases same : entry.1 = name
      · simp [get?, same]
      · simpa [get?, same] using ih

theorem get?_filter (keep : String → Bool) (entries : Ordered α) {name : String}
    (kept : keep name = true) :
    get? (entries.filter fun entry => keep entry.1) name = entries.get? name := by
  induction entries with
  | nil => rfl
  | cons entry rest ih =>
      by_cases same : entry.1 = name
      · rw [List.filter_cons_of_pos (by rwa [same])]
        simp [get?, same]
      · by_cases stays : keep entry.1 = true
        · rw [List.filter_cons_of_pos (by exact stays)]
          simpa [get?, same] using ih
        · rw [List.filter_cons_of_neg (by exact stays)]
          simpa [get?, same] using ih

end Ordered

end RequestQuery
