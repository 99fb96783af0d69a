/-
# Ordered named entries

A list of named entries in which order matters and a name is meant to occur once: the members of a
JSON object, the columns of a row, the keys of a sort.  Putting a value under a name that is there
keeps the name's place (`names_put_of_mem`); otherwise the entry goes to the end
(`names_put_of_not_mem`).  So a list made from nothing by such steps is distinct
(`distinct_ofList`).
-/
namespace RequestQuery

set_option autoImplicit false

universe u

/-- Named entries in order. -/
abbrev Ordered (α : Type u) := List (String × α)

namespace Ordered

variable {α : Type u}

def names (entries : Ordered α) : List String :=
  entries.map (·.1)

/-- No name occurs twice. -/
def Distinct (entries : Ordered α) : Prop :=
  entries.names.Nodup

/-- The value of the first entry of that name. -/
def get? (entries : Ordered α) (name : String) : Option α :=
  match entries with
  | [] => none
  | (n, v) :: rest => if n = name then some v else get? rest name

/-- Set the value of a name, in its place if it has one. -/
def put (entries : Ordered α) (name : String) (value : α) : Ordered α :=
  match entries with
  | [] => [(name, value)]
  | (n, v) :: rest => if n = name then (n, value) :: rest else (n, v) :: put rest name value

/-- Leave out every entry of a name. -/
def remove (entries : Ordered α) (name : String) : Ordered α :=
  entries.filter fun entry => entry.1 ≠ name

/-- Put the entries one after the other: a repeated name keeps its first place and its last
value. -/
def ofList (entries : List (String × α)) : Ordered α :=
  entries.foldl (fun acc entry => acc.put entry.1 entry.2) []

/-! ## Lookup after an operation -/

@[simp] theorem get?_nil (name : String) : get? ([] : Ordered α) name = none := rfl

theorem get?_put (entries : Ordered α) (name other : String) (value : α) :
    (entries.put name value).get? other =
      if name = other then some value else entries.get? other := by
  induction entries with
  | nil => simp [put, get?]
  | cons entry rest ih =>
      obtain ⟨n, v⟩ := entry
      by_cases h : n = name
      · subst h; by_cases g : n = other <;> simp [put, get?, g]
      · by_cases g : n = other
        · subst g; simp [put, get?, h, Ne.symm h]
        · simp [put, get?, h, g, ih]

theorem get?_remove (entries : Ordered α) (name other : String) :
    (entries.remove name).get? other = if other = name then none else entries.get? other := by
  induction entries with
  | nil => simp [remove]
  | cons entry rest ih =>
      obtain ⟨n, v⟩ := entry
      by_cases h : n = name
      · subst h
        by_cases g : n = other
        · subst g
          simpa [remove, get?] using ih
        · simpa [remove, get?, g] using ih
      · by_cases g : n = other
        · subst g
          simp [remove, get?, h]
        · simpa [remove, get?, h, g] using ih

theorem get?_map {β : Type u} (f : α → β) (entries : Ordered α) (name : String) :
    get? (entries.map fun entry => (entry.1, f entry.2)) name = (entries.get? name).map f := by
  induction entries with
  | nil => rfl
  | cons entry rest ih =>
      obtain ⟨n, v⟩ := entry
      by_cases h : n = name
      · simp [get?, h]
      · simpa [get?, h] using ih

theorem put_map {β : Type u} (f : α → β) (entries : Ordered α) (name : String) (value : α) :
    put (entries.map fun entry => (entry.1, f entry.2)) name (f value) =
      (entries.put name value).map fun entry => (entry.1, f entry.2) := by
  induction entries with
  | nil => rfl
  | cons entry rest ih =>
      obtain ⟨n, v⟩ := entry
      by_cases h : n = name
      · simp [put, h]
      · simpa [put, h] using ih

theorem names_put_of_mem {entries : Ordered α} {name : String} (value : α)
    (h : name ∈ entries.names) : (entries.put name value).names = entries.names := by
  induction entries with
  | nil => simp [names] at h
  | cons entry rest ih =>
      obtain ⟨n, v⟩ := entry
      by_cases g : n = name
      · simp [put, names, g]
      · have : name ∈ names rest := by simpa [names, Ne.symm g] using h
        simpa [put, names, g] using ih this

theorem put_of_not_mem {entries : Ordered α} {name : String} (value : α)
    (fresh : name ∉ entries.names) : entries.put name value = entries ++ [(name, value)] := by
  induction entries with
  | nil => rfl
  | cons entry rest ih =>
      simp only [names, List.map_cons, List.mem_cons, not_or] at fresh
      rw [put, if_neg (Ne.symm fresh.1), ih fresh.2, List.cons_append]

theorem names_put_of_not_mem {entries : Ordered α} {name : String} (value : α)
    (h : name ∉ entries.names) : (entries.put name value).names = entries.names ++ [name] := by
  rw [put_of_not_mem value h, names, List.map_append]
  rfl

theorem mem_names_put {entries : Ordered α} {name other : String} {value : α} :
    other ∈ (entries.put name value).names ↔ other ∈ entries.names ∨ other = name := by
  by_cases taken : name ∈ entries.names
  · rw [names_put_of_mem value taken]
    exact ⟨.inl, fun either => either.elim id fun same => same ▸ taken⟩
  · rw [names_put_of_not_mem value taken, List.mem_append, List.mem_singleton]

theorem Distinct.put {entries : Ordered α} (h : entries.Distinct) (name : String) (value : α) :
    (entries.put name value).Distinct := by
  by_cases g : name ∈ entries.names
  · rw [Distinct, names_put_of_mem value g]; exact h
  · rw [Distinct, names_put_of_not_mem value g, List.nodup_append]
    refine ⟨h, by simp, ?_⟩
    rintro a ha b hb rfl
    simp only [List.mem_singleton] at hb
    exact g (hb ▸ ha)

theorem get?_eq_none_iff {entries : Ordered α} {name : String} :
    entries.get? name = none ↔ name ∉ entries.names := by
  induction entries with
  | nil => simp [names]
  | cons entry rest ih =>
      obtain ⟨n, v⟩ := entry
      by_cases h : n = name
      · simp [get?, names, h]
      · rw [show names ((n, v) :: rest) = n :: names rest from rfl, List.mem_cons, not_or, ← ih]
        simp [get?, h, Ne.symm h]

theorem distinct_ofList (entries : List (String × α)) : (ofList entries).Distinct := by
  suffices ∀ start : Ordered α, start.Distinct →
      Distinct (entries.foldl (fun acc entry => acc.put entry.1 entry.2) start) from
    this [] List.nodup_nil
  induction entries with
  | nil => exact fun _ h => h
  | cons entry rest ih => exact fun start h => ih _ (h.put entry.1 entry.2)

/-- Entries whose names are distinct are put nowhere but at the end. -/
theorem ofList_of_distinct {entries : List (String × α)} (distinct : Distinct entries) :
    ofList entries = entries := by
  suffices ∀ start : Ordered α, Distinct (start ++ entries) →
      entries.foldl (fun acc entry => acc.put entry.1 entry.2) start = start ++ entries from
    this [] distinct
  induction entries with
  | nil => exact fun start _ => (List.append_nil start).symm
  | cons entry rest ih =>
      intro start apart
      have fresh : entry.1 ∉ start.names := by
        rw [Distinct, names, List.map_append, List.nodup_append] at apart
        exact fun taken => apart.2.2 _ taken _ List.mem_cons_self rfl
      have remaining : Distinct rest := (List.nodup_cons.1 distinct).2
      rw [List.foldl_cons, put_of_not_mem entry.2 fresh,
        ih remaining _ (by rwa [List.append_assoc]), List.append_assoc]
      rfl

/-! ## Entries after an operation -/

theorem mem_put {entries : Ordered α} {name : String} {value : α} {entry : String × α}
    (h : entry ∈ entries.put name value) : entry = (name, value) ∨ entry ∈ entries := by
  induction entries with
  | nil => exact .inl (List.mem_singleton.1 h)
  | cons first rest ih =>
      simp only [put] at h
      split at h
      next same =>
        rcases List.mem_cons.1 h with rfl | h
        · exact .inl (by rw [same])
        · exact .inr (List.mem_cons_of_mem _ h)
      next =>
        rcases List.mem_cons.1 h with rfl | h
        · exact .inr List.mem_cons_self
        · exact (ih h).imp id (List.mem_cons_of_mem _)

theorem mem_ofList {entries : List (String × α)} {entry : String × α}
    (h : entry ∈ ofList entries) : entry ∈ entries := by
  suffices ∀ start : Ordered α,
      entry ∈ entries.foldl (fun acc entry => Ordered.put acc entry.1 entry.2) start →
        entry ∈ start ∨ entry ∈ entries from
    (this [] h).resolve_left List.not_mem_nil
  clear h
  induction entries with
  | nil => exact fun start h => .inl h
  | cons first rest ih =>
      intro start h
      rcases ih _ h with h | h
      · rcases mem_put h with rfl | h
        · exact .inr List.mem_cons_self
        · exact .inl h
      · exact .inr (List.mem_cons_of_mem _ h)

theorem mem_names_ofList {entries : List (String × α)} {name : String} :
    name ∈ (ofList entries).names ↔ name ∈ names entries := by
  suffices ∀ start : Ordered α,
      name ∈ names (entries.foldl (fun acc entry => Ordered.put acc entry.1 entry.2) start) ↔
        name ∈ start.names ∨ name ∈ names entries from
    (this []).trans (or_iff_right List.not_mem_nil)
  induction entries with
  | nil => simp [names]
  | cons first rest ih =>
      intro start
      rw [List.foldl_cons, ih, mem_names_put, or_assoc]
      simp [names]

theorem mem_of_get? {entries : Ordered α} {name : String} {value : α}
    (h : entries.get? name = some value) : (name, value) ∈ entries := by
  induction entries with
  | nil => cases h
  | cons first rest ih =>
      simp only [get?] at h
      split at h
      next same =>
        cases h
        exact same ▸ List.mem_cons_self
      next => exact List.mem_cons_of_mem _ (ih h)

theorem get?_of_mem {entries : Ordered α} (distinct : entries.Distinct) {entry : String × α}
    (h : entry ∈ entries) : entries.get? entry.1 = some entry.2 := by
  induction entries with
  | nil => cases h
  | cons first rest ih =>
      obtain ⟨fresh, others⟩ := List.nodup_cons.1 distinct
      rcases List.mem_cons.1 h with rfl | h
      · rw [get?, if_pos rfl]
      · have apart : first.1 ≠ entry.1 := fun same => fresh (List.mem_map.2 ⟨entry, h, same.symm⟩)
        rw [get?, if_neg apart, ih others h]

end Ordered

end RequestQuery
